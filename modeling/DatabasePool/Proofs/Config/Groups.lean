import DatabasePool.Proofs.Config.Options

/-!
# Timeouts and ping policies on their own

The settings of a group are read from an object like those of a whole
configuration, except that each is checked where it stands and that unknown
members are passed over loosely.

* `Choices.decodeGroup_eq` says what is read for a group, and when.
* `Config.exists_document` says that a configuration is read from nothing but
  an object that is sound throughout.
* `Config.decode_groups` compares the two ways to read a group.
-/

namespace DatabasePool

open Json (Fault AllBlank Apart Spells SpellsScalar SpellsNested Members
  Document)

/-! ## One group -/

namespace Choices

variable {depth : Nat} {bs bs' text rest : List Char} {v : Json}
  {group : List Setting}

/-- What a member does to the choices for a group. -/
def groupStep (group : List Setting) (cs : Choices) (m : String × Json) :
    Except Fault Choices :=
  match pick? group m with
  | some (s, v) => cs.add s v
  | none => .ok cs

/-- A member is read and makes its step. -/
theorem scanGroupMember_append {name : String} (cs : Choices)
    (hb : AllBlank bs) (hb' : AllBlank bs') (hv : Spells depth v text)
    (hrest : Apart rest) :
    scanGroupMember group cs name (bs ++ ':' :: (bs' ++ (text ++ rest))) =
      (groupStep group cs (name, v)).map (·, rest) := by
  unfold scanGroupMember groupStep pick?
  cases (Setting.ofName? name).filter (· ∈ group) with
  | some s => exact scanMember_append cs s hb hb' hv hrest
  | none =>
    show (Json.colon _ >>= Json.skipValue).map _ = _
    rw [Json.colon_append hb]
    show (Json.skipValue _).map _ = _
    rw [Json.skipValue_append hv hb' hrest]
    rfl

/-- The steps of all members make the choices that are picked from them. -/
theorem foldlM_groupStep (cs : Choices) (members : List (String × Json)) :
    members.foldlM (groupStep group) cs =
      cs.addEach (picked group members) := by
  rw [addEach, picked, List.foldlM_filterMap]
  congr 1
  funext cs m
  rw [groupStep]
  cases pick? group m <;> rfl

/-- The settings of a group are read from a document if each of them is
proper. -/
theorem decodeGroup_eq {members : List (String × Json)} {text : String}
    (h : Document (.object members) text) (group : List Setting) :
    ((∀ s ∈ group, s.Proper members) →
        decodeGroup group text = .ok (picked group members).reverse) ∧
      (¬(∀ s ∈ group, s.Proper members) →
        decodeGroup group text = .error .mismatch) := by
  obtain ⟨bs, inner, bs', hb, hms, hb', htext⟩ := Json.members_of_document h
  have hscan : scanGroup group text.toList =
      (addEach [] (picked group members)).map (·, bs') := by
    rw [scanGroup, htext, Json.skipBlank_lead hb (by decide)]
    show Json.members _ _ _ (inner ++ bs') = _
    rw [← foldlM_groupStep]
    exact Json.members_append Json.readQuoted id (scanGroupMember group)
      (groupStep group) (fun hs rest => Json.readQuoted_append hs rest)
      (fun cs hb hb' hv hrest => scanGroupMember_append cs hb hb' hv hrest)
      hms _ _
  have hfine : Fine ((picked group members).reverse ++ []) ↔
      ∀ s ∈ group, s.Proper members := by
    rw [List.append_nil, fine_perm_iff (List.reverse_perm _), fine_picked_iff]
  refine ⟨fun hproper => ?_, fun hnot => ?_⟩
  · rw [decodeGroup, hscan, addEach_ok .nil (hfine.2 hproper),
      List.append_nil]
    exact Json.atEnd_blank _ hb'
  · rw [decodeGroup, hscan, addEach_mismatch .nil (mt hfine.1 hnot)]
    rfl

/-! ## What a setting is read from -/

theorem scalar_of_scan {cs cs' : Choices} {s : Setting}
    (h : cs.scan s text = .ok (cs', rest)) :
    ∃ v bs part, AllBlank bs ∧ SpellsScalar v part ∧
      text = bs ++ (part ++ rest) ∧ cs.add s v = .ok cs' := by
  obtain ⟨bs, hb, htext⟩ := Json.exists_blank text
  unfold scan at h
  split at h
  · cases h
  · rename_i c tail heq
    split at h
    · cases h
    · split at h
      · cases h
      · rename_i v rest' hread
        obtain ⟨cs'', hadd, hcs⟩ := map_eq_ok h
        cases hcs
        obtain ⟨part, hv, rfl⟩ := Json.spells_of_scalarFrom hread
        exact ⟨v, bs, c :: part, hb, hv, by rw [htext, heq, List.cons_append],
          hadd⟩

theorem scalar_of_scanMember {cs cs' : Choices} {s : Setting}
    (h : cs.scanMember s text = .ok (cs', rest)) :
    ∃ v bs bs' part, AllBlank bs ∧ AllBlank bs' ∧ SpellsScalar v part ∧
      text = bs ++ ':' :: (bs' ++ (part ++ rest)) ∧
      cs.add s v = .ok cs' := by
  unfold scanMember at h
  split at h
  · cases h
  · obtain ⟨tail, hcolon, hscan⟩ := bind_eq_ok h
    obtain ⟨bs, hb, rfl⟩ := Json.blank_of_colon hcolon
    obtain ⟨v, bs', part, hb', hv, rfl, hadd⟩ := scalar_of_scan hscan
    exact ⟨v, bs, bs', part, hb, hb', hv, rfl, hadd⟩

end Choices

namespace Config

/-- A member that is read is sound, and it makes its step. -/
theorem step_of_scanMember {p p' : Draft} {name : String}
    {text rest : List Char} (h : scanMember p name text = .ok (p', rest)) :
    ∃ v bs bs' part, AllBlank bs ∧ AllBlank bs' ∧
      Spells (Json.maxDepth - 1) v part ∧
      text = bs ++ ':' :: (bs' ++ (part ++ rest)) ∧
      p.step (name, v) = .ok p' := by
  unfold scanMember at h
  unfold Draft.step Choices.pick?
  split at h
  · rename_i s hname
    obtain ⟨⟨cs, rest'⟩, hscan, heq⟩ := map_eq_ok h
    cases heq
    obtain ⟨v, bs, bs', part, hb, hb', hv, rfl, hadd⟩ :=
      Choices.scalar_of_scanMember hscan
    refine ⟨v, bs, bs', part, hb, hb', .scalar hv _, rfl, ?_⟩
    rw [hname]
    show (p.chosen.add s v).map _ = _
    rw [hadd]
    rfl
  · rename_i hname
    obtain ⟨tail, hcolon, h⟩ := bind_eq_ok h
    obtain ⟨⟨v, rest'⟩, hread, heq⟩ := bind_eq_ok h
    cases heq
    obtain ⟨bs, hb, rfl⟩ := Json.blank_of_colon hcolon
    obtain ⟨bs', part, hb', hv, rfl⟩ := Json.spells_of_readValue hread
    refine ⟨v, bs, bs', part, hb, hb', hv, rfl, ?_⟩
    rw [hname]
    rfl

/-- A configuration is read from nothing but a sound object. -/
theorem exists_document {text : String} {c : Config}
    (h : decode text = .ok c) :
    ∃ members, Document (.object members) text := by
  obtain ⟨cs, hcs, -⟩ := bind_eq_ok h
  obtain ⟨⟨cs', bs'⟩, hscan, hend⟩ := bind_eq_ok hcs
  obtain ⟨-, hb'⟩ := Json.blank_of_atEnd hend
  obtain ⟨bs, hb, htext⟩ := Json.exists_blank text.toList
  unfold scan at hscan
  split at hscan
  · cases hscan
  · rename_i tail heq
    obtain ⟨⟨p, rest⟩, hread, hrest⟩ := bind_eq_ok hscan
    obtain ⟨cs'', -, hrest⟩ := bind_eq_ok hrest
    cases hrest
    obtain ⟨members, inner, hms, rfl, -⟩ := Json.members_of_memberLoop
      scanMember Draft.step (fun hmember => step_of_scanMember hmember) hread
    exact ⟨members, bs, '{' :: inner, bs', hb, SpellsNested.object hms, hb',
      by rw [htext, heq, List.cons_append]⟩
  · unfold Choices.wrongKind at hscan
    split at hscan
    · cases hscan
    · split at hscan <;> cases hscan

end Config

/-! ## Both ways -/

theorem Timeouts.ofChoices_congr {cs cs' : Choices}
    (h : ∀ s ∈ Setting.timeouts, cs.value? s = cs'.value? s) :
    Timeouts.ofChoices cs = Timeouts.ofChoices cs' := by
  simp [Timeouts.ofChoices, Choices.span, h .checkout (by decide),
    h .wait (by decide), h .connect (by decide)]

theorem PingPolicy.ofChoices_congr {cs cs' : Choices}
    (h : ∀ s ∈ Setting.ping, cs.value? s = cs'.value? s) :
    PingPolicy.ofChoices cs = PingPolicy.ofChoices cs' := by
  simp [PingPolicy.ofChoices, Choices.span, Choices.flag, Choices.text,
    h .pingEnabled (by decide), h .pingQuery (by decide),
    h .pingNotUsedFor (by decide)]

namespace Config

/-- The groups of a configuration are read from what the configuration is
read from. -/
theorem decode_timeouts_ping {text : String} {c : Config}
    (h : decode text = .ok c) :
    Timeouts.decode text = .ok c.timeouts ∧
      PingPolicy.decode text = .ok c.ping := by
  obtain ⟨members, hdoc⟩ := exists_document h
  have hproper := (decode_options hdoc).1.1 ⟨c, h⟩
  obtain ⟨cs, hfine, hperm, hok⟩ := (decode_eq hdoc).1 hproper
  obtain rfl : ofChoices cs = c := Except.ok.inj (hok ▸ h)
  have hvalue : ∀ group : List Setting, ∀ s ∈ group,
      Choices.value? (Choices.picked group members).reverse s =
        cs.value? s := by
    intro group s hs
    have hgroup : Choices.Fine (Choices.picked group members).reverse :=
      (Choices.fine_picked_iff.2 fun s _ => hproper s).perm
        (List.reverse_perm _).symm
    rw [hgroup.value?_eq_given (List.reverse_perm _) hs,
      hfine.value?_eq_given hperm s.mem_all]
  rw [Timeouts.decode, PingPolicy.decode,
    (Choices.decodeGroup_eq hdoc _).1 fun s _ => hproper s,
    (Choices.decodeGroup_eq hdoc _).1 fun s _ => hproper s]
  exact ⟨congrArg Except.ok (Timeouts.ofChoices_congr (hvalue _)),
    congrArg Except.ok (PingPolicy.ofChoices_congr (hvalue _))⟩

theorem proper_of_decodeGroup {members : List (String × Json)}
    {text : String} (h : Document (.object members) text)
    {group : List Setting} {cs : Choices}
    (hok : Choices.decodeGroup group text = .ok cs) :
    ∀ s ∈ group, s.Proper members := by
  by_contra hnot
  rw [(Choices.decodeGroup_eq h group).2 hnot] at hok
  cases hok

/-- Whatever a configuration is read from, its timeouts and its ping policy
are read from as well, and from an object from which both of them are read the
configuration is read too, unless the limits are in the way. -/
theorem decode_groups :
    (∀ text c, decode text = .ok c →
      Timeouts.decode text = .ok c.timeouts ∧
        PingPolicy.decode text = .ok c.ping) ∧
      ∀ members text, Document (.object members) text →
        ∀ t p, Timeouts.decode text = .ok t →
          PingPolicy.decode text = .ok p →
          (∀ s ∈ Setting.limits, s.Proper members) →
          ∃ c, decode text = .ok c := by
  refine ⟨fun text c h => decode_timeouts_ping h, ?_⟩
  intro members text hdoc t p ht hp hlimits
  obtain ⟨cs, hcs, -⟩ := map_eq_ok ht
  obtain ⟨cs', hcs', -⟩ := map_eq_ok hp
  have htimeouts := proper_of_decodeGroup hdoc hcs
  have hping := proper_of_decodeGroup hdoc hcs'
  refine (decode_options hdoc).1.2 fun s => ?_
  have hgroup : s ∈ Setting.limits ++ Setting.timeouts ++ Setting.ping :=
    s.mem_all
  rcases List.mem_append.1 hgroup with hs | hs
  · exact (List.mem_append.1 hs).elim (hlimits s) (htimeouts s)
  · exact hping s hs

/-- A text in which each group has a member, written in other ways than
usual. -/
def grouped : List (String × Json) :=
  [("", .array [.array [], .null]), ("connectTimeout", .nat 30),
    ("pingEnabled", .bool true), ("maxIdle", .nat 0), ("", .string "\t")]

def groupedText : String :=
  "\x7b \"\" : [ [ ] , null ] , \"connect\\u0054imeout\" : 30 ,\r\n" ++
    "\"pingEnabled\":true,\"maxIdle\":0,\"\":\"\\t\" \x7d"

theorem decode_groups_grouped :
    Document (.object grouped) groupedText ∧
      (∀ s ∈ Setting.limits, s.Proper grouped) ∧
      ∃ c, decode groupedText = .ok c ∧
        Timeouts.decode groupedText = .ok c.timeouts ∧
        PingPolicy.decode groupedText = .ok c.ping := by
  have hdoc : Document (.object grouped) groupedText :=
    Json.parse_eq_ok_iff.1 rfl
  have hlimits : ∀ s ∈ Setting.limits, s.Proper grouped := by
    simp only [Setting.limits, List.forall_mem_cons, List.not_mem_nil,
      false_implies, implies_true, and_true]
    exact ⟨.inl rfl, .inr ⟨_, _, rfl, .maxIdle (by decide)⟩, .inl rfl⟩
  obtain ⟨c, hc⟩ :=
    decode_groups.2 grouped groupedText hdoc _ _ rfl rfl hlimits
  exact ⟨hdoc, hlimits, c, hc, decode_groups.1 _ _ hc⟩

end Config

end DatabasePool
