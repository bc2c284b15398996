import DatabasePool.Proofs.Config.Choices
import DatabasePool.Proofs.Json.Values

/-!
# Which options a configuration is read from

A configuration is read in two goes, the limits first and the other settings
from what was laid aside.  Both goes together make the choices that are picked
from the members of the object, in another order, and the order does not
matter.

* `Config.decode_eq` says what is read from a document, and when.
* `Config.decode_options` says it without choices: which objects are read, and
  what the fields of the configuration are.
-/

namespace DatabasePool

open Json (Fault AllBlank Apart Spells SpellsNested Members Document)

/-! ## Objects -/

/-- The text of an object is its members between braces. -/
theorem Json.members_of_document {members : List (String × Json)}
    {text : String} (h : Document (.object members) text) :
    ∃ bs inner bs', AllBlank bs ∧
      Members (Spells (maxDepth - 1)) true members inner ∧ AllBlank bs' ∧
      text.toList = bs ++ '{' :: (inner ++ bs') := by
  obtain ⟨bs, inner, bs', hb, hv, hb', htext⟩ := h
  have hv : SpellsNested (Spells (maxDepth - 1)) (.object members) inner := hv
  cases hv with
  | scalar hv => cases hv
  | object hms => exact ⟨bs, _, bs', hb, hms, hb', htext⟩

namespace Choices

variable {depth : Nat} {bs bs' text rest : List Char} {v : Json}

/-- The value of a setting is read and chosen. -/
theorem scan_append (cs : Choices) (s : Setting) (hb : AllBlank bs)
    (hv : Spells depth v text) (hrest : Apart rest) :
    cs.scan s (bs ++ (text ++ rest)) = (cs.add s v).map (·, rest) := by
  have hnested : (s.accepts v = false) →
      (cs.add s v).map (·, rest) = .error .mismatch := by
    intro h
    rw [add, h, Bool.not_false, Bool.or_true, if_pos rfl]
    rfl
  have hscalar : Json.SpellsScalar v text →
      cs.scan s (bs ++ (text ++ rest)) = (cs.add s v).map (·, rest) := by
    intro hv
    obtain ⟨c, tail, rfl, -⟩ := hv.begins
    obtain ⟨hc, harray, hobject⟩ := hv.first
    rw [scan, List.cons_append, Json.skipBlank_lead hb hc]
    dsimp only
    rw [if_neg (by simp [harray, hobject]),
      Json.scalarFrom_append hv hrest]
  cases depth with
  | zero => exact hscalar hv
  | succ depth =>
    cases hv with
    | scalar hv => exact hscalar hv
    | array hvs =>
      rw [hnested (s.not_accepts_nested _ []).1, scan, List.cons_append,
        Json.skipBlank_lead hb (by decide)]
      rfl
    | object hms =>
      rw [hnested (s.not_accepts_nested [] _).2, scan, List.cons_append,
        Json.skipBlank_lead hb (by decide)]
      rfl

/-- A member is read and its value chosen. -/
theorem scanMember_append (cs : Choices) (s : Setting) (hb : AllBlank bs)
    (hb' : AllBlank bs') (hv : Spells depth v text) (hrest : Apart rest) :
    cs.scanMember s (bs ++ ':' :: (bs' ++ (text ++ rest))) =
      (cs.add s v).map (·, rest) := by
  unfold scanMember
  split
  · rename_i hhas
    rw [add, hhas, Bool.true_or, if_pos rfl]
    rfl
  · rw [Json.colon_append hb]
    exact scan_append cs s hb' hv hrest

/-- The choices that were laid aside are those picked from it. -/
theorem addAll_eq (cs : Choices) (aside : List (String × Json)) :
    cs.addAll aside = cs.addEach (picked Setting.all aside) := by
  rw [addAll, addEach, picked, List.foldlM_filterMap]
  congr 1
  funext cs m
  obtain ⟨name, v⟩ := m
  cases hname : Setting.ofName? name with
  | none => simp [pick?, hname, pure, Except.pure]
  | some s => simp [pick?, hname, Option.filter, s.mem_all]

/-- What is picked for the limits, and what is picked from the rest, is all
that is picked. -/
theorem perm_picked (group : List Setting) (members : List (String × Json)) :
    (picked group members ++
      picked Setting.all (members.filter (pick? group · = none))).Perm
        (picked Setting.all members) := by
  induction members with
  | nil => exact .refl _
  | cons m members ih =>
    rw [picked, picked, picked]
    cases hpick : pick? group m with
    | some p =>
      have hall : pick? Setting.all m = some p :=
        pick?_eq_some.2 ⟨p.1.mem_all, (pick?_eq_some.1 hpick).2⟩
      rw [List.filterMap_cons_some hpick, List.filterMap_cons_some hall,
        List.filter_cons_of_neg (by simp [hpick])]
      exact ih.cons p
    | none =>
      rw [List.filterMap_cons_none hpick,
        List.filter_cons_of_pos (by simp [hpick])]
      cases hall : pick? Setting.all m with
      | none =>
        rw [List.filterMap_cons_none hall, List.filterMap_cons_none hall]
        exact ih
      | some p =>
        rw [List.filterMap_cons_some hall, List.filterMap_cons_some hall]
        exact List.perm_middle.trans (ih.cons p)

end Choices

/-! ## Whole configurations -/

namespace Config

/-- What a member does to a configuration that is being read. -/
def Draft.step (p : Draft) (m : String × Json) : Except Fault Draft :=
  match Choices.pick? Setting.limits m with
  | some (s, v) => (p.chosen.add s v).map fun cs => { p with chosen := cs }
  | none => .ok { p with aside := m :: p.aside }

/-- A member is read and makes its step. -/
theorem scanMember_append {bs bs' text rest : List Char} {v : Json}
    {name : String} (p : Draft) (hb : AllBlank bs) (hb' : AllBlank bs')
    (hv : Spells (Json.maxDepth - 1) v text) (hrest : Apart rest) :
    scanMember p name (bs ++ ':' :: (bs' ++ (text ++ rest))) =
      (p.step (name, v)).map (·, rest) := by
  unfold scanMember Draft.step Choices.pick?
  cases (Setting.ofName? name).filter (· ∈ Setting.limits) with
  | some s =>
    show (p.chosen.scanMember s _).map _ =
      ((p.chosen.add s v).map _).map _
    rw [Choices.scanMember_append p.chosen s hb hb' hv hrest]
    cases p.chosen.add s v <;> rfl
  | none =>
    show (Json.colon _ >>= _) = _
    rw [Json.colon_append hb]
    show (Json.readValue _ _ >>= _) = _
    rw [Json.readValue_blank hb', Json.readValue_append hv hrest]
    rfl

/-- The steps of all members choose the limits and lay the rest aside. -/
theorem foldlM_step (members : List (String × Json)) (p : Draft) :
    members.foldlM Draft.step p =
      (p.chosen.addEach (Choices.picked Setting.limits members)).map
        fun cs => ⟨cs, (members.filter
          (Choices.pick? Setting.limits · = none)).reverse ++ p.aside⟩ := by
  induction members generalizing p with
  | nil => rfl
  | cons m members ih =>
    rw [List.foldlM_cons, Draft.step, Choices.picked]
    cases hpick : Choices.pick? Setting.limits m with
    | none =>
      rw [List.filterMap_cons_none hpick,
        List.filter_cons_of_pos (by simp [hpick])]
      show members.foldlM Draft.step _ = _
      rw [ih, List.reverse_cons, List.append_assoc]
      rfl
    | some c =>
      rw [List.filterMap_cons_some hpick,
        List.filter_cons_of_neg (by simp [hpick]), Choices.addEach,
        List.foldlM_cons]
      dsimp only
      cases p.chosen.add c.1 c.2 with
      | error => rfl
      | ok cs => exact ih _

/-- A configuration is read from a document if the choices picked from its
members can be made together. -/
theorem decode_eq {members : List (String × Json)} {text : String}
    (h : Document (.object members) text) :
    ((∀ s : Setting, s.Proper members) → ∃ cs, Choices.Fine cs ∧
        cs.Perm (Choices.picked Setting.all members) ∧
        decode text = .ok (.ofChoices cs)) ∧
      (¬(∀ s : Setting, s.Proper members) →
        decode text = .error .mismatch) := by
  obtain ⟨bs, inner, bs', hb, hms, hb', htext⟩ := Json.members_of_document h
  let picks := Choices.picked Setting.limits members ++
    Choices.picked Setting.all
      (members.filter (Choices.pick? Setting.limits · = none))
  have hread : Json.members Json.readQuoted scanMember ⟨[], []⟩
      (inner ++ bs') = (members.foldlM Draft.step ⟨[], []⟩).map (·, bs') :=
    Json.members_append Json.readQuoted id scanMember Draft.step
      (fun hs rest => Json.readQuoted_append hs rest)
      (fun p hb hb' hv hrest => scanMember_append p hb hb' hv hrest) hms _ _
  have hscan : scan text.toList =
      (Choices.addEach [] picks).map (·, bs') := by
    rw [scan, htext, Json.skipBlank_lead hb (by decide)]
    show (Json.members _ _ _ (inner ++ bs') >>= _) = _
    rw [hread, foldlM_step, Choices.addEach, Choices.addEach,
      List.foldlM_append]
    dsimp only
    cases (Choices.picked Setting.limits members).foldlM
        (fun cs p => Choices.add cs p.1 p.2) [] with
    | error => rfl
    | ok cs =>
      show (Choices.addAll cs (_ ++ []).reverse >>= _) = _
      rw [List.append_nil, List.reverse_reverse, Choices.addAll_eq]
      rfl
  have hperm : (picks.reverse ++ []).Perm
      (Choices.picked Setting.all members) := by
    rw [List.append_nil]
    exact (List.reverse_perm _).trans (Choices.perm_picked _ _)
  have hfine : Choices.Fine (picks.reverse ++ []) ↔
      ∀ s : Setting, s.Proper members := by
    rw [← Choices.fine_perm_iff hperm.symm, Choices.fine_picked_iff]
    exact ⟨fun h s => h s s.mem_all, fun h s _ => h s⟩
  refine ⟨fun hproper => ⟨_, hfine.2 hproper, hperm, ?_⟩, fun hnot => ?_⟩
  · have hend : ((Except.ok (picks.reverse ++ [])).map (·, bs') >>=
        Json.atEnd) = .ok (picks.reverse ++ []) := Json.atEnd_blank _ hb'
    rw [decode, hscan, Choices.addEach_ok .nil (hfine.2 hproper), hend]
    rfl
  · rw [decode, hscan, Choices.addEach_mismatch .nil (mt hfine.1 hnot)]
    rfl

/-- A configuration is read from an object exactly if all settings are proper
in it, and anything else about it does not matter. -/
theorem decode_options {members : List (String × Json)} {text : String}
    (h : Document (.object members) text) :
    ((∃ c, decode text = .ok c) ↔ ∀ s : Setting, s.Proper members) ∧
      (∀ c, decode text = .ok c → ∀ s : Setting,
        (∀ v ∈ s.given members, s.Means v (c.field s)) ∧
        (s.given members = [] → c.field s = ({} : Config).field s)) ∧
      (∀ fault, decode text = .error fault → fault = .mismatch) ∧
      ∀ members' text', Document (.object members') text' →
        (∀ s : Setting, s.given members' = s.given members) →
        decode text' = decode text := by
  have hread := decode_eq h
  by_cases hproper : ∀ s : Setting, s.Proper members
  · obtain ⟨cs, hfine, hperm, hok⟩ := hread.1 hproper
    have hvalue : ∀ s, cs.value? s = (s.given members).head? :=
      fun s => hfine.value?_eq_given hperm s.mem_all
    refine ⟨iff_of_true ⟨_, hok⟩ hproper, ?_, ?_, ?_⟩
    · intro c hc s
      obtain rfl : Config.ofChoices cs = c := Except.ok.inj (hok ▸ hc)
      refine ⟨fun v hv => ?_, fun hnil => ?_⟩
      · rcases hproper s with hnil | ⟨w, f, hw, hf⟩
        · rw [hnil] at hv
          cases hv
        · rw [hw, List.mem_singleton] at hv
          subst hv
          exact Choices.means_field (by rw [hvalue, hw, List.head?_cons])
            (Setting.accepts_iff.2 ⟨f, hf⟩)
      · exact Choices.usual_field (by rw [hvalue, hnil, List.head?_nil])
    · intro fault hfault
      rw [hok] at hfault
      cases hfault
    · intro members' text' h' hgiven
      have hproper' : ∀ s : Setting, s.Proper members' := by
        simpa only [Setting.Proper, hgiven] using hproper
      obtain ⟨cs', hfine', hperm', hok'⟩ := (decode_eq h').1 hproper'
      rw [hok, hok']
      refine congrArg Except.ok (Choices.ofChoices_congr fun s => ?_)
      rw [hvalue, hfine'.value?_eq_given hperm' s.mem_all, hgiven]
  · have herror := hread.2 hproper
    refine ⟨iff_of_false ?_ hproper, ?_, ?_, ?_⟩
    · rintro ⟨c, hc⟩
      rw [herror] at hc
      cases hc
    · intro c hc
      rw [herror] at hc
      cases hc
    · intro fault hfault
      exact (Except.error.inj (herror ▸ hfault)).symm
    · intro members' text' h' hgiven
      have hproper' : ¬∀ s : Setting, s.Proper members' := by
        simpa only [Setting.Proper, hgiven] using hproper
      rw [herror, (decode_eq h').2 hproper']

/-- Members in no order, some of them unknown and one of these given twice. -/
def mixed : List (String × Json) :=
  [("pingQuery", .string "\n😀"), ("q", .array [.nat 1, .object []]),
    ("maxActive", .nat 7), ("q", .number (.decimal 15 2)),
    ("timeToWait", .nat 250)]

/-- A text of these members with blanks and escapes. -/
def mixedText : String :=
  " \x7b\"pingQuery\":\"\\n\\ud83d\\uDE00\", \"q\" :[1 ,\x7b\x7d],\n" ++
    "\"max\\u0041ctive\":7,\"q\":1.5e3,\"timeToWait\":250\x7d\t"

theorem decode_options_mixed :
    Document (.object mixed) mixedText ∧
      (∀ s : Setting, s.Proper mixed) ∧
      ∃ c, decode mixedText = .ok c ∧ ∀ s : Setting,
        (∀ v ∈ s.given mixed, s.Means v (c.field s)) ∧
        (s.given mixed = [] → c.field s = ({} : Config).field s) := by
  have hdoc : Document (.object mixed) mixedText :=
    Json.parse_eq_ok_iff.1 rfl
  have hproper : ∀ s : Setting, s.Proper mixed := by
    intro s
    cases s with
    | maxActive => exact .inr ⟨_, _, rfl, .maxActive (by decide)⟩
    | wait => exact .inr ⟨_, _, rfl, .span (by decide) (by decide)⟩
    | pingQuery => exact .inr ⟨_, _, rfl, .text⟩
    | maxIdle | badTolerance | checkout | connect | pingEnabled
    | pingNotUsedFor => exact .inl rfl
  obtain ⟨hok, hfield, -⟩ := decode_options hdoc
  obtain ⟨c, hc⟩ := hok.2 hproper
  exact ⟨hdoc, hproper, c, hc, hfield c hc⟩

end Config

end DatabasePool
