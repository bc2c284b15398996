import DatabasePool.Proofs.Config.Groups
import DatabasePool.Proofs.Json.Write

/-!
# Configurations, written and read

A configuration is written as nine choices.  Spans lose what they have beyond
whole milliseconds, and nothing else is lost.  What was read once is made of
choices, so it can be written without a loss.

* `Choices.decode_render` says that choices that can be made together are
  read from their text.
* `Time.IsWhole.rounded` says that a whole number of milliseconds loses nothing.
* `Choices.fine_of_decodeGroup` says that whatever is read for a group comes
  from such choices.
* `Config.decode_toJson` is about writing and reading, and about reading,
  writing and reading again.
-/

namespace DatabasePool

open Json (Fault Document Scan)

/-! ## What is left of a span -/

/-- A span rounded down to whole milliseconds, of which there are no more than
a word can count. -/
def Time.rounded (span : Nat) : Nat :=
  min (span / 1000000) 0xffffffffffffffff * 1000000

/-- The span is a number of whole milliseconds that a word can count. -/
def Time.IsWhole (span : Nat) : Prop :=
  ∃ n, n ≤ 0xffffffffffffffff ∧ span = n * 1000000

theorem Time.IsWhole.rounded {span : Nat} (h : IsWhole span) :
    Time.rounded span = span := by
  obtain ⟨n, hn, rfl⟩ := h
  rw [Time.rounded, Nat.mul_div_cancel n (by decide), Nat.min_eq_left hn]

/-- The timeouts with their spans rounded. -/
def Timeouts.rounded (t : Timeouts) : Timeouts where
  checkout := Time.rounded t.checkout
  wait := Time.rounded t.wait
  connect := Time.rounded t.connect

/-- The ping policy with its span rounded. -/
def PingPolicy.rounded (p : PingPolicy) : PingPolicy :=
  { p with notUsedFor := Time.rounded p.notUsedFor }

/-- The configuration with its spans rounded. -/
def Config.rounded (c : Config) : Config :=
  { c with timeouts := c.timeouts.rounded, ping := c.ping.rounded }

/-- Nothing of the timeouts is lost by rounding. -/
structure Timeouts.IsWhole (t : Timeouts) : Prop where
  checkout : Time.IsWhole t.checkout
  wait : Time.IsWhole t.wait
  connect : Time.IsWhole t.connect

theorem Timeouts.IsWhole.rounded {t : Timeouts} (h : t.IsWhole) :
    t.rounded = t := by
  rw [Timeouts.rounded, h.checkout.rounded, h.wait.rounded,
    h.connect.rounded]

/-- Nothing of the ping policy is lost by rounding. -/
def PingPolicy.IsWhole (p : PingPolicy) : Prop := Time.IsWhole p.notUsedFor

theorem PingPolicy.IsWhole.rounded {p : PingPolicy} (h : p.IsWhole) :
    p.rounded = p := by
  rw [PingPolicy.rounded, Time.IsWhole.rounded h]

/-- The counts of the configuration are such as their words can hold. -/
structure Config.IsSized (c : Config) : Prop where
  maxActive : c.maxActive ≤ 0xffffffffffffffff
  maxIdle : c.maxIdle ≤ 0xffffffffffffffff
  badTolerance : c.badTolerance ≤ 0xffffffff

/-! ## Choices, written and read -/

namespace Choices

/-- The choices as members of an object. -/
def members (cs : Choices) : List (String × Json) :=
  cs.map fun (s, v) => (s.name, v)

/-- Choices about a group are picked from their members. -/
theorem picked_members {group : List Setting} {cs : Choices}
    (h : ∀ p ∈ cs, p.1 ∈ group) : picked group cs.members = cs := by
  induction cs with
  | nil => rfl
  | cons p cs ih =>
    obtain ⟨s, v⟩ := p
    have hpick : pick? group (s.name, v) = some (s, v) :=
      pick?_eq_some.2 ⟨h _ List.mem_cons_self, rfl⟩
    show List.filterMap (pick? group) ((s.name, v) :: members cs) = _
    rw [List.filterMap_cons_some hpick, ← picked,
      ih fun p hp => h p (List.mem_cons_of_mem _ hp)]

/-- A value that means something is written as it is. -/
theorem plain_of_means {s : Setting} {v : Json} {f : Field}
    (h : s.Means v f) : Json.Plain v := by
  have hle : halfWordMax ≤ wordMax := by decide
  cases h with
  | maxActive hn => exact .nat hn
  | maxIdle hn => exact .nat hn
  | badTolerance hn => exact .nat (Nat.le_trans hn hle)
  | span _ hn => exact .nat hn
  | flag => exact .bool
  | text => exact .string

theorem Fine.document {cs : Choices} (h : cs.Fine) :
    Document (.object cs.members) cs.toJson.render := by
  refine Json.document_render fun m hm => ?_
  obtain ⟨p, hp, rfl⟩ := List.mem_map.1 hm
  obtain ⟨f, hf⟩ := Setting.accepts_iff.1 (h.accepted p hp)
  exact plain_of_means hf

/-- Choices that can be made together are read from their text. -/
theorem Fine.decode_render {cs : Choices} (h : cs.Fine) :
    Config.decode cs.toJson.render = .ok (.ofChoices cs) := by
  have hpicked : picked Setting.all cs.members = cs :=
    picked_members fun p _ => p.1.mem_all
  have hproper : ∀ s : Setting, s.Proper cs.members :=
    fun s => fine_picked_iff.1 (hpicked.symm ▸ h) s s.mem_all
  obtain ⟨cs', hfine, hperm, hok⟩ := (Config.decode_eq h.document).1 hproper
  rw [hok]
  refine congrArg Except.ok (ofChoices_congr fun s => ?_)
  rw [hfine.value?_eq hperm, hpicked]

/-- Choices about a group that can be made together are read for it. -/
theorem Fine.decodeGroup_render {group : List Setting} {cs : Choices}
    (h : cs.Fine) (hgroup : ∀ p ∈ cs, p.1 ∈ group) :
    decodeGroup group cs.toJson.render = .ok cs.reverse := by
  have hpicked := picked_members hgroup
  have hproper := fine_picked_iff.1 (hpicked.symm ▸ h)
  rw [(decodeGroup_eq h.document group).1 hproper, hpicked]

end Choices

/-! ## Configurations as choices -/

theorem accepts_wordMillis {s : Setting} (hs : s ∈ Setting.spans)
    (span : Nat) : s.accepts (.nat (Time.wordMillis span)) = true :=
  Setting.accepts_iff.2 ⟨_, .span hs (Nat.min_le_right _ _)⟩

theorem Timeouts.accepted_choices (t : Timeouts) :
    ∀ p ∈ t.choices, p.1.accepts p.2 = true := by
  simp only [choices, List.forall_mem_cons, List.not_mem_nil, false_implies,
    implies_true, and_true]
  exact ⟨accepts_wordMillis (by decide) _, accepts_wordMillis (by decide) _,
    accepts_wordMillis (by decide) _⟩

theorem PingPolicy.accepted_choices (p : PingPolicy) :
    ∀ q ∈ p.choices, q.1.accepts q.2 = true := by
  simp only [choices, List.forall_mem_cons, List.not_mem_nil, false_implies,
    implies_true, and_true]
  exact ⟨rfl, rfl, accepts_wordMillis (by decide) _⟩

theorem Timeouts.fine_choices (t : Timeouts) : Choices.Fine t.choices :=
  ⟨(by decide : Setting.timeouts.Nodup), t.accepted_choices⟩

theorem PingPolicy.fine_choices (p : PingPolicy) : Choices.Fine p.choices :=
  ⟨(by decide : Setting.ping.Nodup), p.accepted_choices⟩

theorem Config.IsSized.accepted_choices {c : Config} (h : c.IsSized) :
    ∀ p ∈ c.choices, p.1.accepts p.2 = true := by
  simp only [choices, List.forall_mem_append, List.forall_mem_cons,
    List.not_mem_nil, false_implies, implies_true, and_true]
  exact ⟨⟨⟨Setting.accepts_iff.2 ⟨_, .maxActive h.maxActive⟩,
    Setting.accepts_iff.2 ⟨_, .maxIdle h.maxIdle⟩,
    Setting.accepts_iff.2 ⟨_, .badTolerance h.badTolerance⟩⟩,
    c.timeouts.accepted_choices⟩, c.ping.accepted_choices⟩

/-- A sized configuration is written as choices that can be made together. -/
theorem Config.IsSized.fine_choices {c : Config} (h : c.IsSized) :
    Choices.Fine c.choices :=
  ⟨(by decide : Setting.all.Nodup), h.accepted_choices⟩

theorem Config.ofChoices_choices (c : Config) :
    ofChoices c.choices = c.rounded := rfl

theorem Timeouts.ofChoices_choices (t : Timeouts) :
    ofChoices t.choices.reverse = t.rounded := rfl

theorem PingPolicy.ofChoices_choices (p : PingPolicy) :
    ofChoices p.choices.reverse = p.rounded := rfl

/-! ## Nothing is lost of what was read -/

namespace Setting

/-- What a value means for a span is a number of whole milliseconds. -/
theorem Means.isWhole {s : Setting} {v : Json} {n : Nat}
    (h : s.Means v (.number n)) (hs : s ∈ spans) : Time.IsWhole n := by
  cases h with
  | maxActive | maxIdle | badTolerance => exact absurd hs (by decide)
  | span _ hm => exact ⟨_, hm, rfl⟩

/-- What a value means for a limit is a number that its word can hold. -/
theorem Means.isSized {s : Setting} {v : Json} {n : Nat}
    (h : s.Means v (.number n)) (hs : s ∉ spans) :
    n ≤ 0xffffffffffffffff ∧ (s = .badTolerance → n ≤ 0xffffffff) := by
  cases h with
  | maxActive hn | maxIdle hn => exact ⟨hn, fun h => by cases h⟩
  | badTolerance hn => exact ⟨Nat.le_trans hn (by decide), fun _ => hn⟩
  | span hs' => exact absurd hs' hs

/-- The usual value of a setting is what some value means. -/
theorem exists_means_usual (s : Setting) :
    ∃ v, s.Means v (({} : Config).field s) := by
  cases s with
  | maxActive => exact ⟨_, .maxActive (by decide)⟩
  | maxIdle => exact ⟨_, .maxIdle (by decide)⟩
  | badTolerance => exact ⟨_, .badTolerance (by decide)⟩
  | checkout => exact ⟨_, .span (n := 20000) (by decide) (by decide)⟩
  | wait => exact ⟨_, .span (n := 20000) (by decide) (by decide)⟩
  | connect => exact ⟨_, .span (n := 10000) (by decide) (by decide)⟩
  | pingEnabled => exact ⟨_, .flag⟩
  | pingQuery => exact ⟨_, .text⟩
  | pingNotUsedFor => exact ⟨_, .span (n := 0) (by decide) (by decide)⟩

end Setting

namespace Choices

/-- Every field of a configuration that choices make is what some value
means. -/
theorem Fine.exists_means {cs : Choices} (h : cs.Fine) (s : Setting) :
    ∃ v, s.Means v ((Config.ofChoices cs).field s) := by
  cases hv : cs.value? s with
  | none =>
    rw [usual_field hv]
    exact s.exists_means_usual
  | some v =>
    have hmem : v ∈ cs.values s :=
      List.mem_of_head? (by rw [← value?_eq_head?, hv])
    exact ⟨v, means_field hv (h.accepted _ (mem_values.1 hmem))⟩

theorem Fine.isSized {cs : Choices} (h : cs.Fine) :
    (Config.ofChoices cs).IsSized := by
  obtain ⟨_, hactive⟩ := h.exists_means .maxActive
  obtain ⟨_, hidle⟩ := h.exists_means .maxIdle
  obtain ⟨_, hbad⟩ := h.exists_means .badTolerance
  exact ⟨(hactive.isSized (by decide)).1, (hidle.isSized (by decide)).1,
    (hbad.isSized (by decide)).2 rfl⟩

theorem Fine.isWhole_timeouts {cs : Choices} (h : cs.Fine) :
    (Timeouts.ofChoices cs).IsWhole := by
  obtain ⟨_, hcheckout⟩ := h.exists_means .checkout
  obtain ⟨_, hwait⟩ := h.exists_means .wait
  obtain ⟨_, hconnect⟩ := h.exists_means .connect
  exact ⟨hcheckout.isWhole (by decide), hwait.isWhole (by decide),
    hconnect.isWhole (by decide)⟩

theorem Fine.isWhole_ping {cs : Choices} (h : cs.Fine) :
    (PingPolicy.ofChoices cs).IsWhole := by
  obtain ⟨_, hnotUsed⟩ := h.exists_means .pingNotUsedFor
  exact hnotUsed.isWhole (by decide)

/-! ## Whatever is read is made of choices -/

theorem fine_of_add {cs cs' : Choices} {s : Setting} {v : Json}
    (h : cs.Fine) (hadd : cs.add s v = .ok cs') : cs'.Fine := by
  unfold add at hadd
  split at hadd
  · cases hadd
  · rename_i hnot
    cases hadd
    exact (fine_cons_iff h).2 (Bool.eq_false_iff.2 hnot)

section
variable {cs cs' : Choices} {text rest : List Char}

theorem fine_of_scanGroupMember {group : List Setting} {name : String}
    (h : cs.Fine)
    (hscan : scanGroupMember group cs name text = .ok (cs', rest)) :
    cs'.Fine := by
  unfold scanGroupMember at hscan
  split at hscan
  · obtain ⟨v, _, _, _, _, _, _, _, hadd⟩ := scalar_of_scanMember hscan
    exact fine_of_add h hadd
  · obtain ⟨_, _, heq⟩ := map_eq_ok hscan
    cases heq
    exact h

theorem fine_of_scanItems {group : List Setting} {first : Bool}
    (h : cs.Fine) (hscan : scanItems group first cs text = .ok (cs', rest)) :
    cs'.Fine := by
  induction group generalizing first cs text with
  | nil =>
    unfold scanItems at hscan
    split at hscan
    · cases hscan
    · cases hscan
      exact h
    · cases hscan
  | cons s group ih =>
    unfold scanItems at hscan
    split at hscan
    · cases hscan
    · cases hscan
      exact h
    · split at hscan
      · cases hscan
      · rename_i hitem
        obtain ⟨v, _, _, _, _, _, hadd⟩ := scalar_of_scan hitem
        exact ih (fine_of_add h hadd) hscan

end

/-- Whatever is read for a group comes from choices that can be made
together. -/
theorem fine_of_decodeGroup {group : List Setting} {text : String}
    {cs : Choices} (h : decodeGroup group text = .ok cs) : cs.Fine := by
  obtain ⟨⟨cs', rest⟩, hscan, hend⟩ := bind_eq_ok h
  obtain ⟨rfl, -⟩ := Json.blank_of_atEnd hend
  unfold scanGroup at hscan
  split at hscan
  · cases hscan
  · exact fine_of_scanItems .nil hscan
  · exact Json.memberLoop_preserves Fine
      (fun hfine hmember => fine_of_scanGroupMember hfine hmember) .nil hscan
  · unfold wrongKind at hscan
    split at hscan
    · cases hscan
    · split at hscan <;> cases hscan

end Choices

theorem Config.exists_fine {text : String} {c : Config}
    (h : Config.decode text = .ok c) :
    ∃ cs, Choices.Fine cs ∧ Config.ofChoices cs = c := by
  obtain ⟨members, hdoc⟩ := exists_document h
  obtain ⟨cs, hfine, -, hok⟩ := (decode_eq hdoc).1
    ((decode_options hdoc).1.1 ⟨c, h⟩)
  exact ⟨cs, hfine, Except.ok.inj (hok ▸ h)⟩

/-! ## The round trips -/

theorem Config.decode_render {c : Config} (h : c.IsSized) :
    decode c.toJson.render = .ok c.rounded := by
  rw [toJson, h.fine_choices.decode_render, ofChoices_choices]

theorem Timeouts.decode_render (t : Timeouts) :
    decode t.choices.toJson.render = .ok t.rounded := by
  have hgroup : ∀ p ∈ t.choices, p.1 ∈ Setting.timeouts :=
    fun p hp => List.mem_map_of_mem (f := Prod.fst) hp
  rw [decode, t.fine_choices.decodeGroup_render hgroup]
  exact congrArg Except.ok t.ofChoices_choices

theorem PingPolicy.decode_render (p : PingPolicy) :
    decode p.choices.toJson.render = .ok p.rounded := by
  have hgroup : ∀ q ∈ p.choices, q.1 ∈ Setting.ping :=
    fun q hq => List.mem_map_of_mem (f := Prod.fst) hq
  rw [decode, p.fine_choices.decodeGroup_render hgroup]
  exact congrArg Except.ok p.ofChoices_choices

/-- What is written is read again with its spans rounded, and of what was read
nothing is lost by writing it. -/
theorem Config.decode_toJson :
    (∀ c : Config, c.IsSized → decode c.toJson.render = .ok c.rounded ∧
        (c.timeouts.IsWhole → c.ping.IsWhole → c.rounded = c)) ∧
      (∀ text c, decode text = .ok c → decode c.toJson.render = .ok c) ∧
      (∀ t : Timeouts,
        Timeouts.decode t.choices.toJson.render = .ok t.rounded ∧
          (t.IsWhole → t.rounded = t)) ∧
      (∀ text t, Timeouts.decode text = .ok t →
        Timeouts.decode t.choices.toJson.render = .ok t) ∧
      (∀ p : PingPolicy,
        PingPolicy.decode p.choices.toJson.render = .ok p.rounded ∧
          (p.IsWhole → p.rounded = p)) ∧
      ∀ text p, PingPolicy.decode text = .ok p →
        PingPolicy.decode p.choices.toJson.render = .ok p := by
  have hrounded : ∀ c : Config, c.timeouts.IsWhole → c.ping.IsWhole →
      c.rounded = c := by
    intro c ht hp
    rw [rounded, ht.rounded, hp.rounded]
  refine ⟨fun c hc => ⟨decode_render hc, hrounded c⟩, fun text c h => ?_,
    fun t => ⟨t.decode_render, fun ht => ht.rounded⟩, fun text t h => ?_,
    fun p => ⟨p.decode_render, fun hp => hp.rounded⟩, fun text p h => ?_⟩
  · obtain ⟨cs, hfine, rfl⟩ := exists_fine h
    rw [decode_render hfine.isSized,
      hrounded _ hfine.isWhole_timeouts hfine.isWhole_ping]
  · obtain ⟨cs, hcs, rfl⟩ := map_eq_ok h
    have hfine := Choices.fine_of_decodeGroup hcs
    rw [Timeouts.decode_render, hfine.isWhole_timeouts.rounded]
  · obtain ⟨cs, hcs, rfl⟩ := map_eq_ok h
    have hfine := Choices.fine_of_decodeGroup hcs
    rw [PingPolicy.decode_render, hfine.isWhole_ping.rounded]

/-- A configuration that is as hard to write as can be. -/
def Config.awkward : Config where
  maxActive := 18446744073709551615
  maxIdle := 0
  badTolerance := 4294967295
  timeouts :=
    { checkout := 18446744073709551616 * 1000000
      wait := 1999999
      connect := 5 }
  ping :=
    { enabled := true
      query := "say \"ä\"\\\n\u0001\x7f😀 / 'b'"
      notUsedFor := 250000000 }

theorem Config.decode_toJson_awkward :
    awkward.IsSized ∧
      decode awkward.toJson.render = .ok
        { awkward with
          timeouts :=
            { checkout := 18446744073709551615 * 1000000
              wait := 1000000
              connect := 0 } } ∧
      ∃ text c, decode text = .ok c ∧ decode c.toJson.render = .ok c := by
  have hsized : awkward.IsSized := ⟨by decide, by decide, by decide⟩
  have hread := (decode_toJson.1 awkward hsized).1
  exact ⟨hsized, hread, _, _, hread, decode_toJson.2.1 _ _ hread⟩

end DatabasePool
