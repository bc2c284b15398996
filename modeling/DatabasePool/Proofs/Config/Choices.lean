import DatabasePool.Config.Decode
import Mathlib.Data.List.Perm.Basic
import Mathlib.Data.List.Perm.Lattice

/-!
# Choices that can be made together

What the members of an object say about the settings, and what comes of making
one choice after the other.

* `Setting.Means` is the meaning of a value for a setting.
* `Setting.Proper` says that the members say nothing about a setting, or one
  thing that it can take.
* `Choices.addEach_eq` says that choices can be made one after the other
  exactly if they are `Fine` as a whole, so their order does not matter.
* `Choices.fine_picked_iff` says that the choices picked from the members of
  an object are fine exactly if all their settings are proper.
-/

namespace DatabasePool

/-! ## The meaning of a value -/

/-- What a field of a configuration holds. -/
inductive Field where
  /-- A count, or a span in nanoseconds. -/
  | number (n : Nat)
  | flag (b : Bool)
  | text (t : String)
  deriving DecidableEq, Repr

/-- The field of a configuration that a setting is about. -/
def Config.field (c : Config) : Setting → Field
  | .maxActive => .number c.maxActive
  | .maxIdle => .number c.maxIdle
  | .badTolerance => .number c.badTolerance
  | .checkout => .number c.timeouts.checkout
  | .wait => .number c.timeouts.wait
  | .connect => .number c.timeouts.connect
  | .pingEnabled => .flag c.ping.enabled
  | .pingQuery => .text c.ping.query
  | .pingNotUsedFor => .number c.ping.notUsedFor

/-- The settings that are spans. -/
def Setting.spans : List Setting := [checkout, wait, connect, pingNotUsedFor]

/-- For a setting, a value means this.  A value of another kind, or out of
range, means nothing. -/
inductive Setting.Means : Setting → Json → Field → Prop where
  | maxActive {n : Nat} (hn : n ≤ wordMax) :
      Means .maxActive (.nat n) (.number n)
  | maxIdle {n : Nat} (hn : n ≤ wordMax) :
      Means .maxIdle (.nat n) (.number n)
  | badTolerance {n : Nat} (hn : n ≤ halfWordMax) :
      Means .badTolerance (.nat n) (.number n)
  | span {s : Setting} {n : Nat} (hs : s ∈ spans) (hn : n ≤ wordMax) :
      Means s (.nat n) (.number (Time.ofMillis n))
  | flag {b : Bool} : Means .pingEnabled (.bool b) (.flag b)
  | text {t : String} : Means .pingQuery (.string t) (.text t)

namespace Setting

/-- A number of a kind is a natural number within the limit. -/
theorem Kind.accepts_upTo {limit : Nat} {v : Json} :
    (Kind.upTo limit).accepts v = true ↔ ∃ n : Nat, n ≤ limit ∧ v = .nat n := by
  constructor
  · intro h
    match v with
    | .number (.whole n) =>
      simp only [Kind.accepts, Bool.and_eq_true, decide_eq_true_eq] at h
      obtain ⟨k, rfl⟩ := Int.eq_ofNat_of_zero_le h.1
      exact ⟨k, Int.ofNat_le.1 h.2, rfl⟩
    | .number (.decimal _ _) | .null | .bool _ | .string _ | .array _
    | .object _ => cases h
  · rintro ⟨n, hn, rfl⟩
    show (decide (0 ≤ (n : Int)) && decide ((n : Int) ≤ limit)) = true
    rw [Bool.and_eq_true, decide_eq_true_eq, decide_eq_true_eq]
    exact ⟨Int.natCast_nonneg n, Int.ofNat_le.2 hn⟩

/-- A setting takes those values that mean something for it. -/
theorem accepts_iff {s : Setting} {v : Json} :
    s.accepts v = true ↔ ∃ f, s.Means v f := by
  constructor
  · intro h
    have hspan : s ∈ spans → s.kind = .upTo wordMax → ∃ f, s.Means v f := by
      intro hs hk
      rw [accepts, hk] at h
      obtain ⟨n, hn, rfl⟩ := Kind.accepts_upTo.1 h
      exact ⟨_, .span hs hn⟩
    cases s with
    | checkout | wait | connect | pingNotUsedFor =>
      exact hspan (by decide) rfl
    | maxActive =>
      obtain ⟨n, hn, rfl⟩ := Kind.accepts_upTo.1 h
      exact ⟨_, .maxActive hn⟩
    | maxIdle =>
      obtain ⟨n, hn, rfl⟩ := Kind.accepts_upTo.1 h
      exact ⟨_, .maxIdle hn⟩
    | badTolerance =>
      obtain ⟨n, hn, rfl⟩ := Kind.accepts_upTo.1 h
      exact ⟨_, .badTolerance hn⟩
    | pingEnabled =>
      match v with
      | .bool b => exact ⟨_, .flag⟩
      | .null | .number _ | .string _ | .array _ | .object _ => cases h
    | pingQuery =>
      match v with
      | .string t => exact ⟨_, .text⟩
      | .null | .number _ | .bool _ | .array _ | .object _ => cases h
  · rintro ⟨f, h⟩
    cases h with
    | maxActive hn | maxIdle hn | badTolerance hn =>
      exact Kind.accepts_upTo.2 ⟨_, hn, rfl⟩
    | span hs hn =>
      have hk : s.kind = .upTo wordMax := by
        revert hs
        cases s <;> decide
      rw [accepts, hk]
      exact Kind.accepts_upTo.2 ⟨_, hn, rfl⟩
    | flag | text => rfl

/-- A setting takes no array and no object. -/
theorem not_accepts_nested (s : Setting) (items : List Json)
    (members : List (String × Json)) :
    s.accepts (.array items) = false ∧ s.accepts (.object members) = false := by
  cases s <;> exact ⟨rfl, rfl⟩

theorem ofName?_eq_some {s : Setting} {name : String} :
    ofName? name = some s ↔ name = s.name := by
  constructor
  · intro h
    have hname := List.find?_some (h : all.find? (·.name == name) = some s)
    exact (eq_of_beq hname).symm
  · rintro rfl
    exact ofName?_name s

/-- The values that the members of an object give to a setting. -/
def given (s : Setting) (members : List (String × Json)) : List Json :=
  (members.filter (·.1 = s.name)).map (·.2)

/-- The members of an object give a setting no value, or a single one that
means something for it. -/
def Proper (s : Setting) (members : List (String × Json)) : Prop :=
  s.given members = [] ∨ ∃ v f, s.given members = [v] ∧ s.Means v f

end Setting

namespace Choices

/-! ## Choices as a whole -/

/-- The choices can be made together. -/
structure Fine (cs : Choices) : Prop where
  once : (cs.map (·.1)).Nodup
  accepted : ∀ p ∈ cs, p.1.accepts p.2 = true

theorem Fine.nil : Fine [] := ⟨List.nodup_nil, by simp⟩

theorem Fine.perm {cs cs' : Choices} (h : cs.Fine) (hp : cs.Perm cs') :
    cs'.Fine :=
  ⟨(hp.map _).nodup_iff.1 h.once, fun p hp' => h.accepted p (hp.mem_iff.2 hp')⟩

theorem fine_perm_iff {cs cs' : Choices} (hp : cs.Perm cs') :
    cs.Fine ↔ cs'.Fine :=
  ⟨fun h => h.perm hp, fun h => h.perm hp.symm⟩

theorem Fine.of_append {cs cs' : Choices} (h : (cs ++ cs').Fine) :
    cs'.Fine := by
  refine ⟨?_, fun p hp => h.accepted p (List.mem_append_right _ hp)⟩
  have honce := h.once
  rw [List.map_append] at honce
  exact (List.nodup_append'.1 honce).2.1

/-- The values that are chosen for a setting. -/
def values (cs : Choices) (s : Setting) : List Json :=
  (cs.filter (·.1 = s)).map (·.2)

theorem mem_values {cs : Choices} {s : Setting} {v : Json} :
    v ∈ cs.values s ↔ (s, v) ∈ cs := by
  simp [values]

theorem count_eq_length_values (cs : Choices) (s : Setting) :
    (cs.map (·.1)).count s = (cs.values s).length := by
  rw [values, List.length_map, List.count_eq_countP, List.countP_map,
    List.countP_eq_length_filter]
  congr 1

/-- Choices can be made together exactly if there is at most one for each
setting, and it is one that the setting takes. -/
theorem fine_iff {cs : Choices} :
    cs.Fine ↔ ∀ s, cs.values s = [] ∨
      ∃ v, cs.values s = [v] ∧ s.accepts v = true := by
  constructor
  · intro h s
    have hcount := List.nodup_iff_count_le_one.1 h.once s
    rw [count_eq_length_values] at hcount
    match hvalues : cs.values s, hcount with
    | [], _ => exact .inl rfl
    | [v], _ =>
      have hv : v ∈ cs.values s := by
        rw [hvalues]
        exact List.mem_singleton_self v
      exact .inr ⟨v, rfl, h.accepted _ (mem_values.1 hv)⟩
  · intro h
    refine ⟨List.nodup_iff_count_le_one.2 fun s => ?_, fun p hp => ?_⟩
    · rw [count_eq_length_values]
      rcases h s with hnil | ⟨v, hv, -⟩
      · simp [hnil]
      · simp [hv]
    · have hmem : p.2 ∈ cs.values p.1 := mem_values.2 hp
      rcases h p.1 with hnil | ⟨v, hv, haccepts⟩
      · rw [hnil] at hmem
        cases hmem
      · rw [hv, List.mem_singleton] at hmem
        rw [hmem]
        exact haccepts

theorem has_iff {cs : Choices} {s : Setting} :
    cs.has s = true ↔ s ∈ cs.map (·.1) := by
  simp [has]

/-- One more choice can be made. -/
theorem fine_cons_iff {cs : Choices} (h : cs.Fine) {s : Setting} {v : Json} :
    Fine ((s, v) :: cs) ↔ (cs.has s || !s.accepts v) = false := by
  rw [Bool.or_eq_false_iff, Bool.not_eq_false', Bool.eq_false_iff, Ne, has_iff]
  constructor
  · intro h'
    exact ⟨(List.nodup_cons.1 h'.once).1, h'.accepted _ List.mem_cons_self⟩
  · rintro ⟨hnot, haccepts⟩
    refine ⟨List.nodup_cons.2 ⟨hnot, h.once⟩, fun p hp => ?_⟩
    rcases List.mem_cons.1 hp with rfl | hp
    · exact haccepts
    · exact h.accepted p hp

/-- Makes the choices one after the other. -/
def addEach (cs : Choices) (picks : Choices) : Except Json.Fault Choices :=
  picks.foldlM (fun cs p => cs.add p.1 p.2) cs

/-- Choices that are not fine as a whole are refused. -/
theorem addEach_eq {cs : Choices} (h : cs.Fine) (picks : Choices) :
    (Fine (picks.reverse ++ cs) →
        cs.addEach picks = .ok (picks.reverse ++ cs)) ∧
      (¬Fine (picks.reverse ++ cs) →
        cs.addEach picks = .error .mismatch) := by
  induction picks generalizing cs with
  | nil => exact ⟨fun _ => rfl, fun hnot => absurd h hnot⟩
  | cons p picks ih =>
    obtain ⟨s, v⟩ := p
    have hassoc : ((s, v) :: picks).reverse ++ cs =
        picks.reverse ++ (s, v) :: cs := by simp
    rw [hassoc, addEach, List.foldlM_cons, add]
    by_cases hfine : Fine ((s, v) :: cs)
    · rw [(fine_cons_iff h).1 hfine]
      exact ih hfine
    · have hbad : (cs.has s || !s.accepts v) = true := by
        rw [fine_cons_iff h] at hfine
        exact eq_true_of_ne_false hfine
      rw [hbad]
      exact ⟨fun h' => absurd h'.of_append hfine, fun _ => rfl⟩

theorem addEach_ok {cs picks : Choices} (h : cs.Fine)
    (hfine : Fine (picks.reverse ++ cs)) :
    cs.addEach picks = .ok (picks.reverse ++ cs) :=
  (addEach_eq h picks).1 hfine

theorem addEach_mismatch {cs picks : Choices} (h : cs.Fine)
    (hnot : ¬Fine (picks.reverse ++ cs)) :
    cs.addEach picks = .error .mismatch :=
  (addEach_eq h picks).2 hnot

/-! ## Choices picked from members -/

/-- The member as a choice, if it is about a setting of the group. -/
def pick? (group : List Setting) (m : String × Json) : Option (Setting × Json) :=
  ((Setting.ofName? m.1).filter (· ∈ group)).map (·, m.2)

/-- The choices that the members of an object make about a group. -/
def picked (group : List Setting) (members : List (String × Json)) : Choices :=
  members.filterMap (pick? group)

theorem pick?_eq_some {group : List Setting} {m : String × Json}
    {s : Setting} {v : Json} :
    pick? group m = some (s, v) ↔ s ∈ group ∧ m = (s.name, v) := by
  obtain ⟨name, w⟩ := m
  simp only [pick?, Option.map_eq_some_iff, Option.filter_eq_some_iff,
    Setting.ofName?_eq_some, decide_eq_true_eq, Prod.mk.injEq]
  constructor
  · rintro ⟨s', ⟨rfl, hs⟩, rfl, rfl⟩
    exact ⟨hs, rfl, rfl⟩
  · rintro ⟨hs, rfl, rfl⟩
    exact ⟨s, ⟨rfl, hs⟩, rfl, rfl⟩

/-- The values picked for a setting are those given to it. -/
theorem values_picked {group : List Setting} {s : Setting} (hs : s ∈ group)
    (members : List (String × Json)) :
    (picked group members).values s = s.given members := by
  induction members with
  | nil => rfl
  | cons m members ih =>
    obtain ⟨name, v⟩ := m
    rw [picked]
    by_cases hname : name = s.name
    · have hpick : pick? group (name, v) = some (s, v) :=
        pick?_eq_some.2 ⟨hs, by rw [hname]⟩
      rw [List.filterMap_cons_some hpick, ← picked]
      simpa [Setting.given, values, hname] using ih
    · have hgiven : s.given ((name, v) :: members) = s.given members := by
        simp [Setting.given, hname]
      rw [hgiven, ← ih]
      cases hpick : pick? group (name, v) with
      | none => rw [List.filterMap_cons_none hpick, ← picked]
      | some p =>
        obtain ⟨s', v'⟩ := p
        obtain ⟨-, hm⟩ := pick?_eq_some.1 hpick
        have hne : s' ≠ s := by
          rintro rfl
          exact hname (Prod.mk.inj hm).1
        rw [List.filterMap_cons_some hpick, ← picked]
        simp [values, hne]

theorem values_picked_of_not_mem {group : List Setting} {s : Setting}
    (hs : s ∉ group) (members : List (String × Json)) :
    (picked group members).values s = [] := by
  refine List.eq_nil_iff_forall_not_mem.2 fun v hv => hs ?_
  obtain ⟨m, -, hm⟩ := List.mem_filterMap.1 (mem_values.1 hv)
  exact (pick?_eq_some.1 hm).1

/-- The choices picked for a group can be made together exactly if each
setting of the group is proper. -/
theorem fine_picked_iff {group : List Setting}
    {members : List (String × Json)} :
    Fine (picked group members) ↔ ∀ s ∈ group, s.Proper members := by
  simp only [fine_iff, Setting.accepts_iff, Setting.Proper]
  constructor
  · intro h s hs
    rcases h s with hnil | ⟨v, hv, f, hf⟩
    · exact .inl (values_picked hs members ▸ hnil)
    · exact .inr ⟨v, f, values_picked hs members ▸ hv, hf⟩
  · intro h s
    by_cases hs : s ∈ group
    · rw [values_picked hs]
      rcases h s hs with hnil | ⟨v, f, hv, hf⟩
      · exact .inl hnil
      · exact .inr ⟨v, hv, f, hf⟩
    · exact .inl (values_picked_of_not_mem hs members)

/-! ## The value chosen for a setting -/

theorem value?_eq_head? (cs : Choices) (s : Setting) :
    cs.value? s = (cs.values s).head? := by
  rw [value?, values, List.head?_map, List.head?_filter]
  rfl

/-- In which order the choices were made does not matter. -/
theorem Fine.value?_eq {cs cs' : Choices} (h : cs.Fine) (hp : cs.Perm cs')
    (s : Setting) : cs.value? s = cs'.value? s := by
  have hvalues : (cs'.values s).Perm (cs.values s) :=
    (hp.symm.filter _).map _
  rw [value?_eq_head?, value?_eq_head?]
  rcases fine_iff.1 h s with hnil | ⟨v, hv, -⟩
  · rw [hnil] at hvalues ⊢
    rw [List.perm_nil.1 hvalues]
  · rw [hv] at hvalues ⊢
    rw [List.perm_singleton.1 hvalues]

/-- The value chosen for a setting of a group is the one given to it. -/
theorem Fine.value?_eq_given {group : List Setting}
    {members : List (String × Json)} {cs : Choices} (h : cs.Fine)
    (hp : cs.Perm (picked group members)) {s : Setting} (hs : s ∈ group) :
    cs.value? s = (s.given members).head? := by
  rw [h.value?_eq hp, value?_eq_head?, values_picked hs]

/-- A configuration made of choices has what they mean. -/
theorem means_field {cs : Choices} {s : Setting} {v : Json}
    (hv : cs.value? s = some v) (haccepts : s.accepts v = true) :
    s.Means v ((Config.ofChoices cs).field s) := by
  obtain ⟨f, hf⟩ := Setting.accepts_iff.1 haccepts
  suffices hfield : (Config.ofChoices cs).field s = f from hfield ▸ hf
  cases hf with
  | maxActive | maxIdle | badTolerance =>
    simp [Config.field, Config.ofChoices, nat, hv, Json.nat]
  | flag =>
    simp [Config.field, Config.ofChoices, PingPolicy.ofChoices, flag, hv]
  | text =>
    simp [Config.field, Config.ofChoices, PingPolicy.ofChoices, text, hv]
  | span hs =>
    simp only [Setting.spans, List.mem_cons, List.not_mem_nil, or_false] at hs
    rcases hs with rfl | rfl | rfl | rfl
    all_goals
      simp [Config.field, Config.ofChoices, Timeouts.ofChoices,
        PingPolicy.ofChoices, span, hv, Json.nat]

/-- A configuration made of choices has the usual value where none was
chosen. -/
theorem usual_field {cs : Choices} {s : Setting} (hv : cs.value? s = none) :
    (Config.ofChoices cs).field s = ({} : Config).field s := by
  cases s
  all_goals
    simp [Config.field, Config.ofChoices, Timeouts.ofChoices,
      PingPolicy.ofChoices, nat, span, flag, text, hv]

/-- Choices that agree on every setting make the same configuration. -/
theorem ofChoices_congr {cs cs' : Choices}
    (h : ∀ s, cs.value? s = cs'.value? s) :
    Config.ofChoices cs = Config.ofChoices cs' := by
  simp only [Config.ofChoices, Timeouts.ofChoices, PingPolicy.ofChoices, nat,
    span, flag, text, h]

end Choices

end DatabasePool
