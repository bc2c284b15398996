import Mathlib.Algebra.GroupWithZero.Nat
import DatabasePool.Proofs.Checkouts
import DatabasePool.Proofs.Leases
import DatabasePool.Proofs.Requests

/-!
# The metrics are an exact ledger

What the pool has counted about hand-outs and loans can be told from the
checkouts alone.  The requests are the checkouts, the request time is the time
from the request of each to its beginning, the claims are the checkouts that
were ended by a claim, and the times held are those of the checkouts that
ended by a return or a claim.

* `Metrics.Counts` says that the counts agree with a book of checkouts.
  `Metrics.Counts.lend` and `Metrics.Counts.finish` are the two entries.
* `Tally.Agrees` adds that the open checkouts are the loans.
  `Tally.Agrees.withdraw` is the end of the pool, loan by loan.
* `Enters.becomes` says what becomes of a checkout in an action.
* `Run.agrees`, `Run.checkout_final` and `Run.checkout_ended` are about runs.
* `ledger_of_run` puts the ledger together.
-/

namespace DatabasePool

/-! ## The book -/

section Book

variable {book : List Checkout} {lease moment : Nat} {k : Ending}
  {x y : Checkout}

/-- The book before and after the end of a checkout. -/
theorem finishIn_eq (hx : book[lease]? = some x) (k : Ending) (moment : Nat) :
    ∃ before after, book = before ++ x :: after ∧
      finishIn lease k moment book = before ++ x.finish k moment :: after := by
  obtain ⟨hlt, hget⟩ := List.getElem?_eq_some_iff.1 hx
  obtain ⟨before, z, after, hbook, hlen, hmodify⟩ :=
    List.exists_of_modify (·.finish k moment) hlt
  obtain rfl : z = x := by
    rw [hbook, ← hlen, List.getElem?_append_right (Nat.le_refl _)] at hx
    simpa using hx
  exact ⟨before, after, hbook, hmodify⟩

theorem getElem?_finishIn (i : Nat) :
    (finishIn lease k moment book)[i]? =
      if lease = i then book[i]?.map (·.finish k moment) else book[i]? := by
  rw [finishIn, List.getElem?_modify]
  split <;> simp

/-- Under any other lease, the book is the same. -/
theorem getElem?_finishIn_ne {i : Nat} (hne : lease ≠ i) :
    (finishIn lease k moment book)[i]? = book[i]? := by
  rw [getElem?_finishIn, if_neg hne]

/-- What is in the book after the end of a checkout was there before, or it is
the one that ended. -/
theorem mem_finishIn (hy : y ∈ finishIn lease k moment book) :
    y ∈ book ∨ ∃ x, book[lease]? = some x ∧ y = x.finish k moment := by
  obtain ⟨i, hi⟩ := List.getElem?_of_mem hy
  rw [getElem?_finishIn] at hi
  split at hi
  · rename_i he
    obtain ⟨x, hx, rfl⟩ := Option.map_eq_some_iff.1 hi
    exact .inr ⟨x, he ▸ hx, rfl⟩
  · exact .inl (List.mem_of_getElem? hi)

/-- What is in the book after one more is entered was there before, or it is
the new one. -/
theorem getElem?_concat_eq_some {i : Nat}
    (hy : (book ++ [x])[i]? = some y) :
    book[i]? = some y ∨ i = book.length ∧ y = x := by
  by_cases hlt : i < book.length
  · rw [List.getElem?_append_left hlt] at hy
    exact .inl hy
  · have hi := (List.getElem?_eq_some_iff.1 hy).1
    rw [List.length_append, List.length_singleton] at hi
    obtain rfl : i = book.length := by omega
    rw [List.getElem?_concat_length] at hy
    exact .inr ⟨rfl, (Option.some.inj hy).symm⟩

/-- What the end of a checkout does not touch stays the same. -/
theorem map_finishIn {α : Type} {f : Checkout → α}
    (hf : ∀ x, f (x.finish k moment) = f x) :
    (finishIn lease k moment book).map f = book.map f := by
  refine List.ext_getElem? fun i => ?_
  rw [List.getElem?_map, List.getElem?_map, getElem?_finishIn]
  split
  · cases book[i]? with
    | none => rfl
    | some x => exact congrArg some (hf x)
  · rfl

/-- The checkouts of some kind are one less or one more. -/
theorem countP_finishIn (p : Checkout → Bool) (hx : book[lease]? = some x)
    (k : Ending) (moment : Nat) :
    (finishIn lease k moment book).countP p + (if p x then 1 else 0) =
      book.countP p + if p (x.finish k moment) then 1 else 0 := by
  obtain ⟨before, after, hbook, hfinished⟩ := finishIn_eq hx k moment
  rw [hfinished, hbook]
  simp only [List.countP_append, List.countP_cons]
  omega

/-- How long all checkouts of some kind lasted together. -/
def totalLasted (p : Checkout → Bool) (book : List Checkout) : Nat :=
  ((book.filter p).map (·.lasted)).sum

/-- The checkout that ends comes to the total if it is of the kind now. -/
theorem totalLasted_finishIn {p : Checkout → Bool}
    (hx : book[lease]? = some x) (hp : p x = false) (k : Ending)
    (moment : Nat) :
    totalLasted p (finishIn lease k moment book) =
      totalLasted p book +
        if p (x.finish k moment) then moment - x.lent else 0 := by
  obtain ⟨before, after, hbook, hfinished⟩ := finishIn_eq hx k moment
  rw [hfinished, hbook]
  simp only [totalLasted, List.filter_append, List.filter_cons, hp,
    Bool.false_eq_true, if_false, List.map_append, List.sum_append]
  split
  · simp only [List.map_cons, List.sum_cons, Checkout.lasted_finish]
    omega
  · rfl

/-- Each checkout has not ended or has ended in one way. -/
theorem length_eq_countP (book : List Checkout) :
    book.length = book.countP (·.isOpen) + book.countP (·.endedBy .returned) +
      book.countP (·.endedBy .claimed) + book.countP (·.endedBy .withdrawn) := by
  induction book with
  | nil => rfl
  | cons x book ih =>
    rw [List.length_cons, ih]
    simp only [List.countP_cons]
    have hone : (if x.isOpen then 1 else 0) +
        (if x.endedBy .returned then 1 else 0) +
        (if x.endedBy .claimed then 1 else 0) +
        (if x.endedBy .withdrawn then 1 else 0) = 1 := by
      obtain ⟨lease, task, lent, ended⟩ := x
      cases ended with
      | none => rfl
      | some e =>
        obtain ⟨k, moment⟩ := e
        cases k <;> rfl
    omega

end Book

/-! ## The counts agree with the book -/

/-- The checkout ended by a return or by a claim. -/
def Checkout.isCounted (x : Checkout) : Bool :=
  x.endedBy .returned || x.endedBy .claimed

/-- The counts agree with the book.  `asked` says when each task asked for a
connection. -/
structure Metrics.Counts (asked : Nat → Nat) (m : Metrics)
    (book : List Checkout) : Prop where
  requests : m.requests = book.length
  requestTime :
    m.requestTime = (book.map fun x => x.lent - asked x.task).sum
  overdueClaims : m.overdueClaims = book.countP (·.endedBy .claimed)
  checkoutTime : m.checkoutTime = totalLasted (·.isCounted) book
  overdueTime : m.overdueTime = totalLasted (·.endedBy .claimed) book

namespace Metrics.Counts

variable {asked : Nat → Nat} {m : Metrics} {book : List Checkout}

/-- A checkout begins. -/
theorem lend (h : m.Counts asked book) {lease task now : Nat} :
    (m.recordRequest (Time.elapsed (asked task) now)).Counts asked
      (book ++ [{ lease, task, lent := now }]) where
  requests := by
    simp [recordRequest, h.requests]
  requestTime := by
    simp [recordRequest, h.requestTime, Time.elapsed]
  overdueClaims := by
    simp [recordRequest, h.overdueClaims, Checkout.endedBy]
  checkoutTime := by
    simp [recordRequest, h.checkoutTime, totalLasted, Checkout.isCounted,
      Checkout.endedBy]
  overdueTime := by
    simp [recordRequest, h.overdueTime, totalLasted, Checkout.endedBy]

/-- A checkout ends that has not ended before. -/
theorem finish (h : m.Counts asked book) {lease : Nat} {x : Checkout}
    (hx : book[lease]? = some x) (hopen : x.isOpen = true) (k : Ending)
    (now : Nat) :
    (k.record (now - x.lent) m).Counts asked (finishIn lease k now book) := by
  have hnot := Checkout.endedBy_of_isOpen hopen
  have hcounted : x.isCounted = false := by
    simp only [Checkout.isCounted, hnot, Bool.or_self]
  have hclaims := countP_finishIn (·.endedBy .claimed) hx k now
  have hcheckout := totalLasted_finishIn hx hcounted k now
  have hoverdue := totalLasted_finishIn hx (hnot .claimed) k now
  constructor
  case requests =>
    rw [finishIn, List.length_modify]
    cases k <;> exact h.requests
  case requestTime =>
    rw [map_finishIn fun _ => rfl]
    cases k <;> exact h.requestTime
  case overdueClaims =>
    rw [hnot, ← h.overdueClaims] at hclaims
    cases k <;> exact hclaims.symm
  case checkoutTime =>
    rw [hcheckout, ← h.checkoutTime]
    cases k <;> rfl
  case overdueTime =>
    rw [hoverdue, ← h.overdueTime]
    cases k <;> rfl

end Metrics.Counts

/-- The leases, the loans and the counts agree with the book. -/
structure Tally.Agrees (asked : Nat → Nat) (now : Nat) (t : Tally) : Prop where
  leases : t.leases = t.book.length
  named : ∀ (i : Nat) (x : Checkout), t.book[i]? = some x → x.lease = i
  loans : ∀ loan ∈ t.active, ∃ x, t.book[loan.lease]? = some x ∧
    x.isOpen = true ∧ loan.entry.record.checkedOut = some x.lent
  held : ∀ (i : Nat) (x : Checkout), t.book[i]? = some x →
    x.isOpen = true → i ∈ t.active.map (·.lease)
  distinct : (t.active.map (·.lease)).Nodup
  active : t.active.length = t.book.countP (·.isOpen)
  dates : ∀ x ∈ t.book, asked x.task ≤ x.lent ∧ x.lent ≤ now ∧
    ∀ k moment, x.ended = some (k, moment) → x.lent ≤ moment ∧ moment ≤ now
  counts : t.metrics.Counts asked t.book

namespace Tally.Agrees

variable {asked : Nat → Nat} {now : Nat} {t : Tally}

/-- Nothing has been lent or counted in the beginning. -/
theorem new (asked : Nat → Nat) : Agrees asked 0 {} := by
  constructor
  case counts => constructor <;> rfl
  all_goals simp

/-- Time may go by. -/
theorem later (h : t.Agrees asked now) {now' : Nat} (hle : now ≤ now') :
    t.Agrees asked now' := by
  refine { h with dates := fun x hx => ?_ }
  obtain ⟨hasked, hlent, hended⟩ := h.dates x hx
  refine ⟨hasked, Nat.le_trans hlent hle, fun k moment he => ?_⟩
  obtain ⟨hafter, hbefore⟩ := hended k moment he
  exact ⟨hafter, Nat.le_trans hbefore hle⟩

/-- A checkout begins. -/
theorem lend (h : t.Agrees asked now) {task : Nat} (e : Entry)
    (hle : asked task ≤ now) :
    ((t.lend (asked task) now e).enter
      { lease := t.leases, task, lent := now }).Agrees asked now := by
  have hnew := List.getElem?_concat_length (l := t.book)
    (a := { lease := t.leases, task, lent := now })
  rw [← h.leases] at hnew
  constructor
  case leases =>
    simpa [Tally.lend, enter] using h.leases
  case named =>
    intro i x hx
    rcases getElem?_concat_eq_some hx with hx | ⟨rfl, rfl⟩
    · exact h.named i x hx
    · exact h.leases
  case loans =>
    intro loan hl
    rcases List.mem_append.1 hl with hl | hl
    · obtain ⟨x, hx, hopen, hsince⟩ := h.loans loan hl
      have hlt := (List.getElem?_eq_some_iff.1 hx).1
      exact ⟨x, (List.getElem?_append_left hlt).trans hx, hopen, hsince⟩
    · obtain rfl := List.mem_singleton.1 hl
      exact ⟨_, hnew, rfl, rfl⟩
  case held =>
    intro i x hx hopen
    simp only [Tally.lend, enter, List.map_append, List.mem_append]
    rcases getElem?_concat_eq_some hx with hx | ⟨rfl, -⟩
    · exact .inl (h.held i x hx hopen)
    · exact .inr (h.leases ▸ List.mem_cons_self)
  case distinct =>
    simp only [Tally.lend, enter, List.map_append, List.nodup_append]
    refine ⟨h.distinct, List.nodup_singleton _, ?_⟩
    intro i hi j hj
    obtain ⟨loan, hl, rfl⟩ := List.mem_map.1 hi
    obtain rfl := List.mem_singleton.1 hj
    obtain ⟨x, hx, -⟩ := h.loans loan hl
    have hlt := (List.getElem?_eq_some_iff.1 hx).1
    rw [← h.leases] at hlt
    exact Nat.ne_of_lt hlt
  case active =>
    simp [Tally.lend, enter, h.active, Checkout.isOpen]
  case dates =>
    intro x hx
    rcases List.mem_append.1 hx with hx | hx
    · exact h.dates x hx
    · obtain rfl := List.mem_singleton.1 hx
      exact ⟨hle, Nat.le_refl _, fun _ _ he => by cases he⟩
  case counts => exact h.counts.lend

/-- A checkout ends. -/
theorem finish (h : t.Agrees asked now) (k : Ending) {loan : Loan}
    {rest : List Loan} (hperm : (loan :: rest).Perm t.active) :
    (t.finish k now loan rest).Agrees asked now := by
  obtain ⟨x, hx, hopen, hsince⟩ :=
    h.loans loan (hperm.subset List.mem_cons_self)
  have hnodup := (hperm.map (·.lease)).nodup_iff.2 h.distinct
  rw [List.map_cons, List.nodup_cons] at hnodup
  have hne : ∀ l ∈ rest, loan.lease ≠ l.lease := fun l hl he =>
    hnodup.1 (he ▸ List.mem_map_of_mem hl)
  constructor
  case leases => simpa [Tally.finish, finishIn] using h.leases
  case named =>
    intro i y hy
    have hy : (finishIn loan.lease k now t.book)[i]? = some y := hy
    rw [getElem?_finishIn] at hy
    split at hy
    · obtain ⟨z, hz, rfl⟩ := Option.map_eq_some_iff.1 hy
      exact h.named i z hz
    · exact h.named i y hy
  case loans =>
    intro l hl
    obtain ⟨y, hy, hrest⟩ :=
      h.loans l (hperm.subset (List.mem_cons_of_mem _ hl))
    exact ⟨y, (getElem?_finishIn_ne (hne l hl)).trans hy, hrest⟩
  case held =>
    intro i y hy hopen'
    have hy : (finishIn loan.lease k now t.book)[i]? = some y := hy
    rw [getElem?_finishIn] at hy
    split at hy
    · obtain ⟨z, -, rfl⟩ := Option.map_eq_some_iff.1 hy
      cases hopen'
    · rename_i hi
      have hmem := (hperm.map (·.lease)).mem_iff.2 (h.held i y hy hopen')
      exact (List.mem_cons.1 hmem).resolve_left (Ne.symm hi)
  case distinct => exact hnodup.2
  case active =>
    have hcount := countP_finishIn (·.isOpen) hx k now
    have hlength := hperm.length_eq
    rw [hopen, ← h.active, ← hlength] at hcount
    exact (Nat.succ.inj hcount).symm
  case dates =>
    intro y hy
    rcases mem_finishIn hy with hy | ⟨z, hz, rfl⟩
    · exact h.dates y hy
    · obtain ⟨hasked, hlent, -⟩ := h.dates z (List.mem_of_getElem? hz)
      refine ⟨hasked, hlent, fun k' moment he => ?_⟩
      cases he
      exact ⟨hlent, Nat.le_refl _⟩
  case counts =>
    have hheld : loan.heldFor now = now - x.lent := Loan.heldFor_eq hsince now
    rw [Tally.finish, hheld]
    exact h.counts.finish hx hopen k now

/-- All checkouts are ended, one after the other. -/
theorem withdraw (h : t.Agrees asked now) :
    (t.withdraw now t.active).Agrees asked now := by
  have hall : ∀ (loans : List Loan) (u : Tally), u.active = loans →
      u.Agrees asked now → (u.withdraw now loans).Agrees asked now := by
    intro loans
    induction loans with
    | nil =>
      intro u hu hagrees
      have he : u.withdraw now [] = u := by
        rw [Tally.withdraw, withdrawIn, List.foldl_nil, ← hu]
      rw [he]
      exact hagrees
    | cons loan rest ih =>
      intro u hu hagrees
      refine ih (u.finish .withdrawn now loan rest) rfl (hagrees.finish _ ?_)
      rw [hu]
  exact hall t.active t rfl h

end Tally.Agrees

/-! ## What becomes of a checkout -/

/-- The checkouts of some leases end, and the others stay as they are. -/
theorem getElem?_withdrawIn (loans : List Loan) (book : List Checkout)
    (moment i : Nat) :
    (withdrawIn loans moment book)[i]? =
      if i ∈ loans.map (·.lease) then
        book[i]?.map (·.finish .withdrawn moment)
      else book[i]? := by
  induction loans generalizing book with
  | nil => rfl
  | cons loan loans ih =>
    refine (ih (finishIn loan.lease .withdrawn moment book)).trans ?_
    rw [getElem?_finishIn, List.map_cons]
    by_cases hi : loan.lease = i
    · have htwice : ∀ x : Checkout, (x.finish .withdrawn moment).finish
          .withdrawn moment = x.finish .withdrawn moment := fun _ => rfl
      subst hi
      simp only [List.mem_cons_self, if_true, Option.map_map,
        Function.comp_def, htwice, ite_self]
    · have hmem : i ∈ loan.lease :: loans.map (·.lease) ↔
          i ∈ loans.map (·.lease) := by simp [Ne.symm hi]
      simp only [if_neg hi, hmem]

/-- What the end of checkouts does not touch stays the same. -/
theorem map_withdrawIn {α : Type} {f : Checkout → α} {moment : Nat}
    (hf : ∀ x, f (x.finish .withdrawn moment) = f x) (loans : List Loan)
    (book : List Checkout) :
    (withdrawIn loans moment book).map f = book.map f := by
  induction loans generalizing book with
  | nil => rfl
  | cons loan loans ih => exact (ih _).trans (map_finishIn hf)

namespace World

/-- What ends a loan in this way: a task that gives the connection back, a
request that finds it overdue, or a task that ends the pool. -/
inductive Ends (w : World) (loan : Loan) : Ending → Action → Prop where
  | returned {id : Nat}
      (hmem : (id, .giveBack (.starting loan.lease)) ∈ w.roll) :
      Ends w loan .returned (.run id)
  | claimed {id : Nat} {q : Request}
      (hmem : (id, .acquire q .looking) ∈ w.roll)
      (hoverdue : w.config.timeouts.checkout < loan.heldFor w.now) :
      Ends w loan .claimed (.run id)
  | withdrawn {id : Nat} (hmem : (id, .start .shutDown) ∈ w.roll) :
      Ends w loan .withdrawn (.run id)

variable {w : World} {a : Action} {t : Tally} {i : Nat} {x : Checkout}

/-- A checkout stays as it is, or it is that of a loan and is ended by the
action. -/
theorem Enters.becomes (h : w.Enters a t) (hx : w.checkouts[i]? = some x) :
    t.book[i]? = some x ∨ ∃ loan ∈ w.pool.active, loan.lease = i ∧
      ∃ k, w.Ends loan k a ∧ t.book[i]? = some (x.finish k w.now) := by
  have hfinish : ∀ {k : Ending} {loan : Loan}, loan ∈ w.pool.active →
      w.Ends loan k a →
      (finishIn loan.lease k w.now w.checkouts)[i]? = some x ∨
        ∃ l ∈ w.pool.active, l.lease = i ∧ ∃ k', w.Ends l k' a ∧
          (finishIn loan.lease k w.now w.checkouts)[i]? =
            some (x.finish k' w.now) := by
    intro k loan hl hends
    by_cases hi : loan.lease = i
    · refine .inr ⟨loan, hl, hi, k, hends, ?_⟩
      rw [getElem?_finishIn, if_pos hi, hx, Option.map_some]
    · exact .inl ((getElem?_finishIn_ne hi).trans hx)
  cases h with
  | same => exact .inl hx
  | lend =>
    have hlt := (List.getElem?_eq_some_iff.1 hx).1
    exact .inl ((List.getElem?_append_left hlt).trans hx)
  | giveBack hmem hperm =>
    exact hfinish (hperm.subset List.mem_cons_self) (.returned hmem)
  | claim hmem hperm hoverdue =>
    exact hfinish (hperm.subset List.mem_cons_self) (.claimed hmem hoverdue)
  | shutDown hmem =>
    have hbook := getElem?_withdrawIn w.pool.active w.checkouts w.now i
    by_cases hi : i ∈ w.pool.active.map (·.lease)
    · obtain ⟨loan, hl, he⟩ := List.mem_map.1 hi
      rw [if_pos hi, hx] at hbook
      exact .inr ⟨loan, hl, he, .withdrawn, .withdrawn hmem, hbook⟩
    · rw [if_neg hi, hx] at hbook
      exact .inl hbook

/-- A checkout that is new has not ended. -/
theorem Enters.new (h : w.Enters a t) (hnone : w.checkouts[i]? = none)
    (hx : t.book[i]? = some x) : x.isOpen = true := by
  have hfinish : ∀ {k : Ending} {lease : Nat},
      (finishIn lease k w.now w.checkouts)[i]? ≠ some x := by
    intro k lease he
    rw [getElem?_finishIn, hnone] at he
    split at he <;> cases he
  cases h with
  | same => cases hnone.symm.trans hx
  | lend =>
    rcases getElem?_concat_eq_some hx with hx | ⟨-, rfl⟩
    · cases hnone.symm.trans hx
    · rfl
  | giveBack | claim => exact absurd hx hfinish
  | shutDown =>
    have hbook := getElem?_withdrawIn w.pool.active w.checkouts w.now i
    rw [hnone, Option.map_none, ite_self] at hbook
    cases hbook.symm.trans hx

/-- An action enters one checkout at most, of a task that lends a
connection. -/
theorem Enters.tasks (h : w.Enters a t) :
    t.book.map (·.task) = w.checkouts.map (·.task) ∨ ∃ id q e,
      (id, .acquire q (.lending e)) ∈ w.roll ∧
        t.book.map (·.task) = w.checkouts.map (·.task) ++ [id] := by
  have hkeeps : ∀ (k : Ending) (x : Checkout),
      (x.finish k w.now).task = x.task := fun _ _ => rfl
  cases h with
  | same => exact .inl rfl
  | @lend id q e hmem => exact .inr ⟨id, q, e, hmem, List.map_append⟩
  | giveBack | claim => exact .inl (map_finishIn (hkeeps _))
  | shutDown => exact .inl (map_withdrawIn (hkeeps _) _ _)

end World

/-! ## Hand-outs -/

/-- A task ended with a connection. -/
def Event.handsOut : Event → Bool
  | ended _ (.lent _) => true
  | _ => false

/-- There is one checkout for each task that ended with a connection, in the
same order. -/
theorem World.checkouts_eq (w : World) :
    w.checkouts.map (fun x => (x.lent, .ended x.task (.lent x.lease))) =
      (w.history.filter (·.2.handsOut)).reverse := by
  unfold checkouts
  induction w.history with
  | nil => rfl
  | cons x history ih =>
    obtain ⟨moment, e⟩ := x
    rw [List.foldr_cons]
    cases e with
    | ended task o =>
      cases o with
      | lent lease =>
        rw [List.filter_cons_of_pos rfl, List.reverse_cons, ← ih]
        exact List.map_append
      | _ => exact ih
    | returned lease held | claimed lease held | withdrawn lease =>
      exact (map_finishIn fun _ => rfl).trans ih
    | _ => exact ih

/-- The history tells of each checkout. -/
theorem World.told_of_mem_checkouts {w : World} {x : Checkout}
    (hx : x ∈ w.checkouts) :
    (x.lent, .ended x.task (.lent x.lease)) ∈ w.history := by
  have hmem := List.mem_map_of_mem (f := fun x : Checkout =>
    (x.lent, Event.ended x.task (.lent x.lease))) hx
  rw [w.checkouts_eq, List.mem_reverse] at hmem
  exact (List.mem_filter.1 hmem).1

section Runs

variable {c : Config} {s : Server} {as later : List Action} {a : Action}
  {w w' : World}

/-- What the pool has counted agrees with the checkouts after every run. -/
theorem Run.agrees (h : Run c s as w) {asked : Nat → Nat}
    (hasked : ∀ x ∈ (World.new c s).requestsIn as, asked x.1 = x.2) :
    w.tally.Agrees asked w.now := by
  induction h with
  | new hs hw =>
    obtain ⟨-, -, rfl⟩ := Run.new_iff.1 (.new hs hw)
    exact Tally.Agrees.new asked
  | @act as a w w' h ha ih =>
    have hagrees := ih fun x hx => hasked x <| by
      rw [World.requestsIn, h.along_cons _ ha]
      exact List.mem_append_right _ hx
    have henters := World.enters (World.distinct_of_run h) ha
    refine Tally.Agrees.later ?_ (h.happens ha).loans.1
    generalize w'.tally = t at henters
    cases henters with
    | same => exact hagrees
    | @lend id q e hmem =>
      have hcall := h.keeps_requests.acquire id q _ hmem
      have hsince : asked id = q.since := by
        refine hasked (id, q.since) ?_
        rw [World.requestsIn, h.along_cons _ ha]
        exact List.mem_append_right _ hcall
      rw [← hsince]
      refine hagrees.lend e ?_
      rw [hsince]
      exact (h.requests _ hmem q rfl).1
    | giveBack _ hperm => exact hagrees.finish .returned hperm
    | claim _ hperm => exact hagrees.finish .claimed hperm
    | shutDown => exact hagrees.withdraw

/-- A checkout that has ended stays as it is. -/
theorem Run.checkout_final (h : Run c s as w) (h' : Run c s (later ++ as) w')
    {x : Checkout} {i : Nat} (hx : w.checkouts[i]? = some x)
    (hended : x.isOpen = false) : w'.checkouts[i]? = some x := by
  induction later generalizing w' with
  | nil =>
    cases h.unique h'
    exact hx
  | cons a later ih =>
    cases h' with
    | @act _ _ v _ h' ha =>
      have hv := ih h'
      have hagrees := Run.agrees h' fun _ hy => Run.askedIn_eq h' hy
      have henters := World.enters (World.distinct_of_run h') ha
      rcases henters.becomes hv with hsame | ⟨loan, hl, rfl, -⟩
      · exact hsame
      · obtain ⟨y, hy, hopen, -⟩ := hagrees.loans loan hl
        obtain rfl := Option.some.inj (hv.symm.trans hy)
        cases hopen.symm.trans hended

/-- A checkout that has ended was ended by an action, at the moment that is
entered, and until then there was a loan. -/
theorem Run.checkout_ended (h : Run c s as w) {x : Checkout} {i : Nat}
    (hx : w.checkouts[i]? = some x) {k : Ending} {moment : Nat}
    (hended : x.ended = some (k, moment)) :
    ∃ later a before v, as = later ++ a :: before ∧ Run c s before v ∧
      v.now = moment ∧ ∃ loan ∈ v.pool.active, loan.lease = i ∧
        v.Ends loan k a := by
  induction h generalizing x with
  | new hs hw =>
    obtain ⟨-, -, rfl⟩ := Run.new_iff.1 (.new hs hw)
    cases hx
  | @act as a w w' h ha ih =>
    have henters := World.enters (World.distinct_of_run h) ha
    have hnot : x.isOpen = false := by rw [Checkout.isOpen, hended]; rfl
    cases hold : w.checkouts[i]? with
    | none => cases (henters.new hold hx).symm.trans hnot
    | some y =>
      rcases henters.becomes hold with hsame | ⟨loan, hl, hi, k', hends, hy⟩
      · obtain rfl := Option.some.inj (hsame.symm.trans hx)
        obtain ⟨later, b, before, v, rfl, hrest⟩ := ih hold hended
        exact ⟨a :: later, b, before, v, rfl, hrest⟩
      · obtain rfl := Option.some.inj (hy.symm.trans hx)
        cases hended
        exact ⟨[], a, as, w, rfl, h, rfl, loan, hl, hi, hends⟩

/-- Each checkout is of a task of its own, which made a request. -/
theorem Run.checkout_tasks (h : Run c s as w) :
    (w.checkouts.map (·.task)).Nodup ∧
      ∀ id ∈ w.checkouts.map (·.task), ∃ moment,
        (id, moment) ∈ (World.new c s).requestsIn as := by
  induction h with
  | new hs hw =>
    obtain ⟨-, -, rfl⟩ := Run.new_iff.1 (.new hs hw)
    exact ⟨List.nodup_nil, fun _ hid => by cases hid⟩
  | @act as a w w' h ha ih =>
    obtain ⟨hnodup, hmade⟩ := ih
    rw [World.requestsIn, h.along_cons _ ha]
    have hmade' : ∀ id ∈ w.checkouts.map (·.task), ∃ moment,
        (id, moment) ∈ w.requestMade a w' ++
          (World.new c s).requestsIn as := by
      intro id hid
      obtain ⟨moment, hmem⟩ := hmade id hid
      exact ⟨moment, List.mem_append_right _ hmem⟩
    rcases (World.enters (World.distinct_of_run h) ha).tasks with he |
      ⟨id, q, e, hmem, he⟩
    · change w'.checkouts.map (·.task) = _ at he
      rw [he]
      exact ⟨hnodup, hmade'⟩
    · change w'.checkouts.map (·.task) = _ at he
      rw [he]
      refine ⟨List.nodup_append.2 ⟨hnodup, List.nodup_singleton _, ?_⟩,
        fun i hi => ?_⟩
      · intro i hi j hj hij
        obtain ⟨x, hx, rfl⟩ := List.mem_map.1 hi
        obtain rfl := List.mem_singleton.1 hj
        exact (h.is_over (World.told_of_mem_checkouts hx) rfl).2 _ hmem hij.symm
      · rcases List.mem_append.1 hi with hi | hi
        · exact hmade' i hi
        · obtain rfl := List.mem_singleton.1 hi
          exact ⟨q.since, List.mem_append_right _
            (h.keeps_requests.acquire i q _ hmem)⟩

end Runs

/-! ## The ledger -/

/-- After these actions, what the pool has counted is an exact ledger of its
checkouts. -/
structure ExactLedger (c : Config) (s : Server) (as : List Action)
    (w : World) : Prop where
  /-- The checkouts are those of the tasks that ended with a connection. -/
  handOuts : w.checkouts.map (fun x => (x.lent, .ended x.task (.lent x.lease))) =
    (w.history.filter (·.2.handsOut)).reverse
  /-- There is one for each lease, -/
  leases : w.checkouts.map (·.lease) = List.range w.handles.length
  /-- and each is of a task of its own. -/
  tasks : (w.checkouts.map (·.task)).Nodup
  /-- Requests have numbers of their own. -/
  numbers : (((World.new c s).requestsIn as).map (·.1)).Nodup
  /-- The request of a checkout was made in this run, and not after it was
  met. -/
  asked : ∀ x ∈ w.checkouts,
    (x.task, (World.new c s).askedIn as x.task) ∈
        (World.new c s).requestsIn as ∧
      (World.new c s).askedIn as x.task ≤ x.lent
  /-- The checkouts that have not ended are the loans that there are. -/
  onLoan : ∀ x ∈ w.checkouts, x.isOpen = true ↔
    ∃ loan ∈ w.pool.active, loan.lease = x.lease
  /-- One that has ended did so after it began. -/
  dates : ∀ x ∈ w.checkouts, x.lent ≤ w.now ∧
    ∀ k moment, x.ended = some (k, moment) → x.lent ≤ moment ∧ moment ≤ w.now
  requests : w.pool.metrics.requests = w.checkouts.length
  requestTime : w.pool.metrics.requestTime =
    (w.checkouts.map fun x =>
      x.lent - (World.new c s).askedIn as x.task).sum
  active : w.pool.active.length = w.checkouts.countP (·.isOpen)
  overdueClaims :
    w.pool.metrics.overdueClaims = w.checkouts.countP (·.endedBy .claimed)
  /-- Each checkout is counted in one term. -/
  split : w.pool.metrics.requests = w.pool.active.length +
    w.checkouts.countP (·.endedBy .returned) + w.pool.metrics.overdueClaims +
      w.checkouts.countP (·.endedBy .withdrawn)
  checkoutTime :
    w.pool.metrics.checkoutTime = totalLasted (·.isCounted) w.checkouts
  overdueTime :
    w.pool.metrics.overdueTime = totalLasted (·.endedBy .claimed) w.checkouts

section Ledgers

variable {c : Config} {s : Server} {as : List Action} {w : World}

theorem Run.exactLedger (h : Run c s as w) : ExactLedger c s as w := by
  have hagrees := h.agrees fun _ hy => h.askedIn_eq hy
  have hcounts := hagrees.counts
  have hat : ∀ {x : Checkout}, x ∈ w.checkouts →
      w.checkouts[x.lease]? = some x := by
    intro x hx
    obtain ⟨i, hi⟩ := List.getElem?_of_mem hx
    exact (hagrees.named i x hi).symm ▸ hi
  have hsplit := length_eq_countP w.checkouts
  have hrequests : w.pool.metrics.requests = w.checkouts.length :=
    hcounts.requests
  have hactive : w.pool.active.length = w.checkouts.countP (·.isOpen) :=
    hagrees.active
  have hclaims :
      w.pool.metrics.overdueClaims = w.checkouts.countP (·.endedBy .claimed) :=
    hcounts.overdueClaims
  constructor
  case handOuts => exact w.checkouts_eq
  case leases =>
    have hlen : w.handles.length = w.checkouts.length := hagrees.leases
    refine List.ext_getElem (by simp [hlen]) fun i hi _ => ?_
    rw [List.length_map] at hi
    rw [List.getElem_map, List.getElem_range]
    exact hagrees.named i _ (List.getElem?_eq_getElem hi)
  case tasks => exact h.checkout_tasks.1
  case numbers => exact h.keeps_requests.nodup
  case asked =>
    intro x hx
    obtain ⟨moment, hmem⟩ := h.checkout_tasks.2 _ (List.mem_map_of_mem hx)
    refine ⟨?_, (hagrees.dates x hx).1⟩
    rw [h.askedIn_eq hmem]
    exact hmem
  case onLoan =>
    intro x hx
    constructor
    · intro hopen
      obtain ⟨loan, hl, he⟩ :=
        List.mem_map.1 (hagrees.held x.lease x (hat hx) hopen)
      exact ⟨loan, hl, he⟩
    · rintro ⟨loan, hl, he⟩
      obtain ⟨y, hy, hopen, -⟩ := hagrees.loans loan hl
      rw [he] at hy
      obtain rfl := Option.some.inj ((hat hx).symm.trans hy)
      exact hopen
  case dates => exact fun x hx => (hagrees.dates x hx).2
  case requests => exact hrequests
  case requestTime => exact hcounts.requestTime
  case active => exact hactive
  case overdueClaims => exact hclaims
  case split => omega
  case checkoutTime => exact hcounts.checkoutTime
  case overdueTime => exact hcounts.overdueTime

/-- A connection that comes back from its holder ends the checkout at
once. -/
theorem Run.returned (h : Run c s as w) {id : Nat} {loan : Loan}
    (hmem : (id, .giveBack (.starting loan.lease)) ∈ w.roll)
    (hl : loan ∈ w.pool.active) {w' : World}
    (ha : w.act (.run id) = some w') :
    ∃ x ∈ w'.checkouts, x.lease = loan.lease ∧
      x.ended = some (.returned, w.now) := by
  have hd := World.distinct_of_run h
  obtain ⟨t, ht, hstage⟩ := hd.task?_of_roll hmem
  obtain rfl := World.id_of_task? ht
  obtain ⟨flow, v, hmove, -, hf⟩ := World.act_task hd ht ha
  rw [hstage] at hmove
  obtain ⟨hlends, hbook⟩ := hmove.returns hl
  have hafter : w'.checkouts = v.checkouts := by
    have htally := hf.tally
    rw [hlends] at htally
    exact congrArg Tally.book htally
  have hagrees := h.agrees fun _ hy => h.askedIn_eq hy
  obtain ⟨x, hx, -⟩ := hagrees.loans loan hl
  refine ⟨x.finish .returned w.now, ?_, hagrees.named _ x hx, rfl⟩
  refine List.mem_of_getElem? (i := loan.lease) ?_
  rw [hafter, hbook, getElem?_finishIn, if_pos rfl]
  exact congrArg (Option.map (·.finish .returned w.now)) hx

/-- The metrics are an exact ledger of the checkouts, after every run.  Each
checkout that has ended was ended once, by a return, an overdue claim or the
end of the pool.  It stays as it was entered, and nothing is counted when its
holder gives the connection back later.  A return is entered as soon as the
loan ends, and nothing is taken back when a task is dropped. -/
theorem ledger_of_run (h : Run c s as w) :
    ExactLedger c s as w ∧
      (∀ x ∈ w.checkouts, ∀ k moment, x.ended = some (k, moment) →
        ∃ later a before v, as = later ++ a :: before ∧ Run c s before v ∧
          v.now = moment ∧ ∃ loan ∈ v.pool.active, loan.lease = x.lease ∧
            v.Ends loan k a) ∧
      (∀ x ∈ w.checkouts, x.isOpen = false →
        (∀ later w', Run c s (later ++ as) w' → x ∈ w'.checkouts) ∧
          ∀ a w', w.act a = some w' → w.GivesBack x.lease a →
            w'.pool.metrics = w.pool.metrics) ∧
      (∀ id loan w', (id, .giveBack (.starting loan.lease)) ∈ w.roll →
        loan ∈ w.pool.active → w.act (.run id) = some w' →
          ∃ x ∈ w'.checkouts, x.lease = loan.lease ∧
            x.ended = some (.returned, w.now)) ∧
      ∀ outside id w', w.act (.cancel outside id) = some w' →
        w'.pool.metrics = w.pool.metrics ∧ w'.checkouts = w.checkouts := by
  have hledger := h.exactLedger
  have hd := World.distinct_of_run h
  have hagrees := h.agrees fun _ hy => h.askedIn_eq hy
  refine ⟨hledger, fun x hx k moment hended => ?_,
    fun x hx hended => ⟨fun later w' h' => ?_, fun a w' ha hgives => ?_⟩,
    fun id loan w' hmem hl ha => h.returned hmem hl ha,
    fun outside id w' ha => ?_⟩
  · obtain ⟨i, hi⟩ := List.getElem?_of_mem hx
    rw [hagrees.named i x hi]
    exact h.checkout_ended hi hended
  · obtain ⟨i, hi⟩ := List.getElem?_of_mem hx
    exact List.mem_of_getElem? (h.checkout_final h' hi hended)
  · refine World.metrics_late hd ha hgives fun loan hl he => ?_
    cases ((hledger.onLoan x hx).2 ⟨loan, hl, he⟩).symm.trans hended
  · have henters := World.enters hd ha
    generalize hbook : w'.tally = t at henters
    cases henters with
    | same =>
      refine ⟨?_, World.checkouts_of_tally hbook⟩
      cases World.acts hd ha with
      | cancel => exact World.metrics_dropTask ..

/-- Three connections are lent.  The first one is claimed, and its holder gives
it back too late.  The second one comes back, but its rollback is dropped.  The
third one is on loan when the pool ends. -/
def lentThreeTimes : List Action :=
  [.run 6, .start .shutDown none, .run 5, .run 5, .advance (Time.ofMillis 75),
    .run 5, .run 5, .run 5, .run 5, .start .acquire none,
    .run 4, .cancel false 3, .run 3, .run 3, .run 3, .start (.close 1) none,
    .markManual 0 true, .advance (Time.ofMillis 70),
    .run 2, .start (.close 0) none,
    .run 1, .run 1, .run 1, .run 1, .run 1, .start .acquire none,
    .advance (Time.ofMillis 60), .run 0, .run 0, .advance (Time.ofMillis 5),
    .run 0, .run 0, .run 0, .run 0, .start .acquire none,
    .changeServer
      { connect := { delay := some 5 }, rollback := { delay := some 10 } }]

/-- What became of the three. -/
def threeCheckouts : List Checkout :=
  [{ lease := 0, task := 0, lent := Time.ofMillis 5
     ended := some (.claimed, Time.ofMillis 60) },
    { lease := 1, task := 1, lent := Time.ofMillis 60
      ended := some (.returned, Time.ofMillis 70) },
    { lease := 2, task := 5, lent := Time.ofMillis 75
      ended := some (.withdrawn, Time.ofMillis 75) }]

/-- Each of the three is counted in its own way. -/
theorem ledger_lentThreeTimes :
    ∃ w, Run briefLoans {} lentThreeTimes w ∧
      w.checkouts = threeCheckouts ∧
      w.pool.metrics =
        { requests := 3, requestTime := Time.ofMillis 10
          checkoutTime := Time.ofMillis 65
          overdueClaims := 1, overdueTime := Time.ofMillis 55 } ∧
      ExactLedger briefLoans {} lentThreeTimes w ∧
      ∀ a w', w.act a = some w' → w.GivesBack 0 a →
        w'.pool.metrics = w.pool.metrics := by
  have hex : ∃ w, Run briefLoans {} lentThreeTimes w ∧
      w.checkouts = threeCheckouts ∧
      w.pool.metrics =
        { requests := 3, requestTime := Time.ofMillis 10
          checkoutTime := Time.ofMillis 65
          overdueClaims := 1, overdueTime := Time.ofMillis 55 } :=
    Run.exists_of_replay rfl rfl (by decide +kernel)
  obtain ⟨w, h, hbook, hmetrics⟩ := hex
  obtain ⟨hledger, -, hended, -⟩ := ledger_of_run h
  have hfirst := List.mem_of_getElem? (i := 0) (congrArg (·[0]?) hbook)
  exact ⟨w, h, hbook, hmetrics, hledger, (hended _ hfirst rfl).2⟩

end Ledgers

end DatabasePool
