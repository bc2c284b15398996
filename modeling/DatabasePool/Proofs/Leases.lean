import DatabasePool.Proofs.Currency
import DatabasePool.Proofs.Overdue
import DatabasePool.Proofs.Records

/-!
# How long a lease lasts

A lease is valid from the loan on.  It ends when its holder gives the
connection back or forgets it, when a request claims the connection because
the loan has lasted too long, or when the pool ends.  Nothing that others do
ends it, and no lease becomes valid again.

* `Does.alters` and `Happens.alters` say what can become of a holder.
* `Run.lent_at` says that a loan counts from the moment at which the
  connection was lent.
* `held_of_run` says what ends a lease.
-/

namespace DatabasePool

/-! ## What becomes of holders -/

/-- What can become of a holder: the lease ends, and the holder begins to give
the connection back. -/
structure Handle.Becomes (x y : Handle) : Prop where
  conn : y.conn = x.conn
  record : y.record = x.record
  valid : y.valid = true → x.valid = true
  closed : x.closed = true → y.closed = true

namespace Handle.Becomes

variable {x y z : Handle}

theorem refl (x : Handle) : x.Becomes x := ⟨rfl, rfl, id, id⟩

theorem trans (h : x.Becomes y) (h' : y.Becomes z) : x.Becomes z :=
  ⟨h'.conn.trans h.conn, h'.record.trans h.record, h.valid ∘ h'.valid,
    h'.closed ∘ h.closed⟩

theorem revoke (x : Handle) : x.Becomes { x with valid := false } :=
  ⟨rfl, rfl, (fun h => by cases h), id⟩

theorem markClosed (x : Handle) : x.Becomes { x with closed := true } :=
  ⟨rfl, rfl, id, fun _ => rfl⟩

end Handle.Becomes

/-- The loan is claimed by a request that looks at the pool: it has lasted too
long and as long as any, nothing is kept, and there is no room. -/
structure Pool.Claims (p : Pool) (c : Config) (now : Nat) (loan : Loan) :
    Prop where
  mem : loan ∈ p.active
  overdue : c.timeouts.checkout < loan.heldFor now
  longest : ∀ l ∈ p.active, l.heldFor now ≤ loan.heldFor now
  idle : p.idle = []
  full : p.hasRoom c.maxActive = false

/-- What a task does to a holder. -/
inductive Does.Alters (c : Config) (V : Scene) (lease : Nat) (x : Handle) :
    Stage → Handle → Prop where
  | mark : Alters c V lease x (.start (.close lease)) { x with closed := true }
  | callIn :
      Alters c V lease x (.start (.close lease))
        { x with valid := false, closed := true }
  | shutDown (hup : V.pool.shutDown = false) :
      Alters c V lease x (.start .shutDown) { x with valid := false }
  | claim {q : Request} {loan : Loan} (hlease : loan.lease = lease)
      (hclaims : V.pool.Claims c V.now loan) :
      Alters c V lease x (.acquire q .looking) { x with valid := false }

/-- What an action does to a holder. -/
inductive World.Alters (c : Config) (w : World) (lease : Nat) (x : Handle) :
    Action → Handle → Prop where
  | deed {id : Nat} {s : Stage} {y : Handle} (hmem : (id, s) ∈ w.roll)
      (hdoes : Does.Alters c w.scene lease x s y) :
      Alters c w lease x (.run id) y
  | forget (outside : Bool) :
      Alters c w lease x (.forget outside lease) { x with valid := false }

theorem World.Alters.becomes {c : Config} {w : World} {lease : Nat}
    {x y : Handle} {a : Action} (h : w.Alters c lease x a y) :
    x.Becomes y := by
  cases h with
  | forget => exact .revoke x
  | deed _ hdoes =>
    cases hdoes with
    | mark => exact .markClosed x
    | callIn => exact (Handle.Becomes.markClosed x).trans (.revoke _)
    | shutDown | claim => exact .revoke x

section Alters

variable {c : Config} {lease : Nat} {x y : Handle}

/-- One holder changes. -/
theorem Handle.getElem?_modify {xs : List Handle} {f : Handle → Handle}
    {i : Nat} (hx : xs[lease]? = some x) :
    (xs.modify i f)[lease]? = some (if i = lease then f x else x) := by
  rw [List.getElem?_modify, hx]
  rfl

/-- The leases of some loans end. -/
theorem Handle.getElem?_withdraw (loans : List Loan) {xs : List Handle}
    (hx : xs[lease]? = some x) :
    ∃ y, (loans.foldl (fun handles loan =>
        handles.modify loan.lease ({ · with valid := false })) xs)[lease]? =
          some y ∧ (y = x ∨ y = { x with valid := false }) := by
  induction loans generalizing xs x with
  | nil => exact ⟨x, hx, .inl rfl⟩
  | cons loan loans ih =>
    obtain ⟨y, hy, he⟩ := ih (getElem?_modify (i := loan.lease)
      (f := ({ · with valid := false })) hx)
    refine ⟨y, hy, ?_⟩
    split at he
    · exact .inr (he.elim id id)
    · exact he

/-- Nothing else happens to a holder when a task does something. -/
theorem Does.alters {V V' : Scene} {s : Stage} {flow : Flow}
    {closes : List Nat} (h : Does c V s flow closes V')
    (hx : V.handles[lease]? = some x) :
    ∃ y, V'.handles[lease]? = some y ∧ (y = x ∨ Does.Alters c V lease x s y) := by
  cases h with
  | @mark i =>
    refine ⟨_, Handle.getElem?_modify hx, ?_⟩
    split
    · rename_i hi
      exact .inr (hi ▸ .mark)
    · exact .inl rfl
  | @callIn i =>
    refine ⟨_, Handle.getElem?_modify (Handle.getElem?_modify hx), ?_⟩
    split
    · rename_i hi
      exact .inr (hi ▸ .callIn)
    · exact .inl rfl
  | @claim q loan rest hup hidle hfull hperm hdue hmax =>
    refine ⟨_, Handle.getElem?_modify hx, ?_⟩
    split
    · rename_i hi
      refine .inr (.claim hi ⟨hperm.subset List.mem_cons_self, ?_, hmax, hidle,
        hfull⟩)
      simpa [Record.isOverdue_eq, Loan.heldFor] using hdue
    · exact .inl rfl
  | lend =>
    refine ⟨x, ?_, .inl rfl⟩
    exact (List.getElem?_append_left
      (List.getElem?_eq_some_iff.1 hx).1).trans hx
  | shutDown hup =>
    obtain ⟨y, hy, rfl | rfl⟩ := Handle.getElem?_withdraw V.pool.active hx
    · exact ⟨_, hy, .inl rfl⟩
    · exact ⟨_, hy, .inr (.shutDown hup)⟩
  | _ => exact ⟨x, hx, .inl rfl⟩

/-- Nothing else happens to a holder when an action happens. -/
theorem Happens.alters {w w' : World} {a : Action} {closes : List Nat}
    (h : Happens c w w' a closes) (hx : w.handles[lease]? = some x) :
    ∃ y, w'.handles[lease]? = some y ∧ (y = x ∨ w.Alters c lease x a y) := by
  cases h.changes with
  | deed hmem hdoes hkeeps =>
    obtain ⟨y, hy, he⟩ := hdoes.alters hx
    exact ⟨y, (hkeeps.handle lease).trans hy, he.imp_right (.deed hmem)⟩
  | forget _ hhandles =>
    refine ⟨_, hhandles ▸ Handle.getElem?_modify hx, ?_⟩
    split
    · rename_i hi
      exact .inr (hi ▸ .forget _)
    · exact .inl rfl
  | same hkeeps => exact ⟨x, (hkeeps.handle lease).trans hx, .inl rfl⟩

/-- A lease that is new is valid, and its holder has not begun to give the
connection back. -/
theorem Does.new_handle {V V' : Scene} {s : Stage} {flow : Flow}
    {closes : List Nat} (h : Does c V s flow closes V')
    (hle : V.handles.length ≤ lease) (hy : V'.handles[lease]? = some y) :
    y.valid = true ∧ y.closed = false := by
  have hlt := (List.getElem?_eq_some_iff.1 hy).1
  have hlen : ∀ U : Scene, U.grants.length = U.handles.length :=
    fun U => List.length_map ..
  rcases h.grants with he | ⟨q, e, rfl, hflow, -⟩
  · have hsame := congrArg List.length he
    rw [hlen, hlen] at hsame
    omega
  · cases h with
    | lend =>
      rw [List.getElem?_append_right hle] at hy
      obtain rfl := List.mem_singleton.1 (List.mem_of_getElem? hy)
      exact ⟨rfl, rfl⟩
    | stay hhand =>
      rw [hflow] at hhand
      cases hhand
    | giveUp => cases hflow
    | discard _ hclosing =>
      rw [hflow] at hclosing
      cases hclosing
    | free hclosing => cases hclosing

theorem Happens.new_handle {w w' : World} {a : Action} {closes : List Nat}
    (h : Happens c w w' a closes) (hle : w.handles.length ≤ lease)
    (hy : w'.handles[lease]? = some y) : y.valid = true ∧ y.closed = false := by
  have hold : w'.handles.length = w.handles.length →
      y.valid = true ∧ y.closed = false := fun he =>
    absurd (List.getElem?_eq_some_iff.1 hy).1 (he ▸ Nat.not_lt.2 hle)
  cases h.changes with
  | deed _ hdoes hkeeps =>
    exact hdoes.new_handle hle ((hkeeps.handle lease).symm.trans hy)
  | forget _ hhandles => exact hold (hhandles ▸ List.length_modify ..)
  | same hkeeps => exact hold (congrArg List.length hkeeps.handles)

end Alters

namespace World

theorem isValid_eq {w : World} {lease : Nat} {x : Handle}
    (hx : w.handles[lease]? = some x) : w.isValid lease = x.valid := by
  rw [isValid, hx]
  rfl

/-- What ends a lease: its holder begins to give the connection back or
forgets it, the pool ends, or a request claims the connection.  The lease
began at the moment `since`. -/
inductive EndsLease (c : Config) (w : World) (lease since : Nat) :
    Action → Prop where
  | close {t : Task} (ht : w.task? t.id = some t)
      (hstage : t.stage = .start (.close lease)) :
      EndsLease c w lease since (.run t.id)
  | forget (outside : Bool) : EndsLease c w lease since (.forget outside lease)
  | shutDown {t : Task} (ht : w.task? t.id = some t)
      (hstage : t.stage = .start .shutDown)
      (hup : w.pool.shutDown = false) : EndsLease c w lease since (.run t.id)
  | claim {t : Task} {q : Request} (ht : w.task? t.id = some t)
      (hstage : t.stage = .acquire q .looking)
      (hoverdue : c.timeouts.checkout < Time.elapsed since w.now)
      (hlongest : ∀ loan ∈ w.pool.active,
        loan.heldFor w.now ≤ Time.elapsed since w.now)
      (hidle : w.pool.idle = [])
      (hfull : w.pool.active.length + w.pool.inFlight = c.maxActive) :
      EndsLease c w lease since (.run t.id)

end World

/-- A loan and the holder under its lease have the same record. -/
def Granted (V : Scene) : Prop :=
  ∀ loan ∈ V.pool.active,
    V.grants[loan.lease]? = some (loan.entry.conn, loan.entry.record)

theorem granted_upheld (c : Config) : Upheld c fun _ V _ => Granted V where
  perm _ hi := hi
  deed {B closes V V' id s flow rest} hdoes hi := by
    have hold : V'.grants = V.grants →
        (∀ loan ∈ V'.pool.active, loan ∈ V.pool.active) → Granted V' := by
      intro he hsub loan hl
      rw [he]
      exact hi loan (hsub loan hl)
    cases hdoes with
    | claim _ _ _ hperm =>
      refine hold (Handle.map_grant_modify ?_ ..) fun _ hl =>
        hperm.subset (List.mem_cons_of_mem _ hl)
      exact fun _ => rfl
    | giveBack hperm | turnAway hperm =>
      exact hold rfl fun _ hl => hperm.subset (List.mem_cons_of_mem _ hl)
    | mark =>
      refine hold (Handle.map_grant_modify ?_ ..) fun _ hl => hl
      exact fun _ => rfl
    | callIn =>
      refine hold ((Handle.map_grant_modify ?_ ..).trans
        (Handle.map_grant_modify ?_ ..)) fun _ hl => hl
      all_goals exact fun _ => rfl
    | @lend q e hcurrent =>
      intro loan hl
      have hlen : V.grants.length = V.handles.length := List.length_map ..
      have he : Scene.grants { V with handles := V.handles ++
          [{ conn := e.conn, record := e.record.lend V.now }] } =
            V.grants ++ [(e.conn, e.record.lend V.now)] := by
        simp only [Scene.grants, List.map_append]
        rfl
      refine (congrArg (·[loan.lease]?) he).trans ?_
      rcases List.mem_append.1 hl with hl | hl
      · have hget := hi loan hl
        rw [List.getElem?_append_left (List.getElem?_eq_some_iff.1 hget).1]
        exact hget
      · obtain rfl := List.mem_singleton.1 hl
        rw [← hlen, List.getElem?_concat_length]
    | shutDown => exact fun _ hl => by cases hl
    | _ => exact hold rfl fun _ hl => hl
  drop hsuspended hi := by
    intro loan hl
    rw [Scene.active_drop] at hl
    exact hi loan hl
  start hi := hi
  giveBack hi := hi
  revoke {B V lease roll} hi := by
    intro loan hl
    refine (congrArg (·[loan.lease]?)
      (Handle.map_grant_modify ?_ V.handles lease)).trans (hi loan hl)
    exact fun _ => rfl
  pass _ hi := hi

section Runs

variable {c : Config} {s : Server} {as later : List Action} {a : Action}
  {w w' : World}

theorem granted_of_run (h : Run c s as w) : Granted w.scene :=
  (granted_upheld c).run h (fun _ hl => by cases hl) fun _ _ _ _ _ hi => hi

/-- What becomes of a holder in an action. -/
theorem Run.handle_act (h : Run c s as w) (ha : w.act a = some w')
    {lease : Nat} {x y : Handle} (hx : w.handles[lease]? = some x)
    (hy : w'.handles[lease]? = some y) :
    x.Becomes y ∧ (y = x ∨ w.Alters c lease x a y) := by
  obtain ⟨z, hz, halters⟩ := (h.happens ha).alters hx
  obtain rfl := Option.some.inj (hz.symm.trans hy)
  refine ⟨?_, halters⟩
  rcases halters with rfl | halters
  · exact .refl _
  · exact halters.becomes

/-- What becomes of a holder in the rest of a run. -/
theorem Run.handle (h : Run c s as w) (h' : Run c s (later ++ as) w')
    {lease : Nat} {x : Handle} (hx : w.handles[lease]? = some x) :
    ∃ y, w'.handles[lease]? = some y ∧ x.Becomes y := by
  induction later generalizing w' with
  | nil =>
    cases h.unique h'
    exact ⟨x, hx, .refl x⟩
  | cons a later ih =>
    cases h' with
    | @act _ _ v _ h' ha =>
      obtain ⟨y, hy, hbecomes⟩ := ih h'
      obtain ⟨z, hz, -⟩ := (h'.happens ha).alters hy
      exact ⟨z, hz, hbecomes.trans (Run.handle_act h' ha hy hz).1⟩

/-- The holder under the lease of a loan has the same connection and the same
record. -/
theorem Run.holder_of_loan (h : Run c s as w) {loan : Loan}
    (hl : loan ∈ w.pool.active) :
    ∃ x, w.handles[loan.lease]? = some x ∧ x.conn = loan.entry.conn ∧
      x.record = loan.entry.record := by
  have hget := granted_of_run h loan hl
  simp only [Scene.grants, World.scene, List.getElem?_map,
    Option.map_eq_some_iff] at hget
  obtain ⟨x, hx, hgrant⟩ := hget
  exact ⟨x, hx, congrArg Prod.fst hgrant, congrArg Prod.snd hgrant⟩

/-- A loan counts from the moment at which the connection was lent. -/
theorem Run.lent_at (h : Run c s as w) {lease : Nat} {x : Handle}
    (hx : w.handles[lease]? = some x) :
    ∃ since id, (since, .ended id (.lent lease)) ∈ w.history ∧
      x.record.checkedOut = some since := by
  induction h generalizing x with
  | new hs hw =>
    obtain ⟨-, -, rfl⟩ := Run.new_iff.1 (.new hs hw)
    cases hx
  | @act as a w w' h ha ih =>
    by_cases hlt : lease < w.handles.length
    · have hget := List.getElem?_eq_getElem hlt
      have hrecord := (h.handle_act ha hget hx).1.record
      obtain ⟨since, id, hmem, hout⟩ := ih hget
      have h' : Run c s ([a] ++ as) w' := .act h ha
      exact ⟨since, id, (h.history_suffix h').subset hmem, hrecord ▸ hout⟩
    · obtain ⟨id, q, e, -, -, -, -, -, hhead, -, hrecord⟩ :=
        h.lends ha (Nat.le_of_not_lt hlt) hx
      refine ⟨w.now, id, List.mem_of_mem_head? hhead, ?_⟩
      rw [hrecord]
      rfl

/-- A lease that is not valid any more after an action has been ended by that
action. -/
theorem Run.ends (h : Run c s as w) {lease : Nat} {x y : Handle}
    (hx : w.handles[lease]? = some x) {since : Nat}
    (hsince : x.record.checkedOut = some since) (hv : x.valid = true)
    (he : y.valid = false) (halters : w.Alters c lease x a y) :
    w.EndsLease c lease since a := by
  cases halters with
  | forget outside => exact .forget outside
  | deed hmem hdoes =>
    obtain ⟨t, ht, hstage⟩ := (World.distinct_of_run h).task?_of_roll hmem
    obtain rfl := World.id_of_task? ht
    cases hdoes with
    | mark => cases hv.symm.trans he
    | callIn => exact .close ht hstage
    | shutDown hup => exact .shutDown ht hstage hup
    | @claim q loan hlease hclaims =>
      subst hlease
      obtain ⟨z, hz, -, hrecord⟩ := h.holder_of_loan hclaims.mem
      obtain rfl := Option.some.inj (hx.symm.trans hz)
      have hheld : loan.heldFor w.now = Time.elapsed since w.now := by
        rw [Loan.heldFor, ← hrecord]
        simp only [Record.heldFor, hsince]
      have hoverdue := hclaims.overdue
      have hlongest := hclaims.longest
      have hfull : ¬w.pool.active.length + w.pool.inFlight < c.maxActive :=
        of_decide_eq_false hclaims.full
      have htotal : w.pool.idle.length + w.pool.active.length +
          w.pool.inFlight ≤ c.maxActive := (capped_of_run h).total
      have hidle : w.pool.idle = [] := hclaims.idle
      refine .claim ht hstage ?_ ?_ hidle (by omega)
      · exact hheld ▸ hoverdue
      · exact fun l hl => hheld ▸ hlongest l hl

/-- A lease that was granted is valid, or there was an action that ended it:
its holder began to give the connection back or forgot it, the pool ended, or
a request claimed the connection.  It is claimed only when the time since the
connection was lent is more than the checkout timeout and no less than that of
any other loan, when nothing is kept, and when all slots are taken. -/
theorem held_of_run (h : Run c s as w) {lease : Nat} {x : Handle}
    (hx : w.handles[lease]? = some x) :
    ∃ since id, (since, .ended id (.lent lease)) ∈ w.history ∧
      (x.valid = true ∨ ∃ later a before v v', as = later ++ a :: before ∧
        Run c s before v ∧ v.act a = some v' ∧ v.isValid lease = true ∧
        v'.isValid lease = false ∧ v.EndsLease c lease since a) := by
  obtain ⟨since, id, hmem, hsince⟩ := h.lent_at hx
  refine ⟨since, id, hmem, ?_⟩
  clear hmem
  induction h generalizing x with
  | new hs hw =>
    obtain ⟨-, -, rfl⟩ := Run.new_iff.1 (.new hs hw)
    cases hx
  | @act as a w w' h ha ih =>
    cases hv : x.valid with
    | true => exact .inl rfl
    | false =>
      right
      have hlt : lease < w.handles.length := by
        refine Nat.lt_of_not_le fun hle => ?_
        cases ((h.happens ha).new_handle hle hx).1.symm.trans hv
      have hget := List.getElem?_eq_getElem hlt
      obtain ⟨hbecomes, halters⟩ := h.handle_act ha hget hx
      rw [hbecomes.record] at hsince
      rcases ih hget hsince with hvalid | ⟨later, b, before, v, v', rfl, hends⟩
      · refine ⟨[], a, as, w, w', rfl, h, ha, ?_, ?_, ?_⟩
        · exact (World.isValid_eq hget).trans hvalid
        · exact (World.isValid_eq hx).trans hv
        · rcases halters with rfl | halters
          · cases hvalid.symm.trans hv
          · exact h.ends hget hsince hvalid hv halters
      · exact ⟨a :: later, b, before, v, v', rfl, hends⟩

/-- A connection is lent, and a request claims it when it has been held for a
moment too long. -/
def lentAndClaimed : List Action :=
  [.run 1, .run 1, .start .acquire none, .advance (Time.ofMillis 51),
    .run 0, .run 0, .run 0, .run 0, .run 0, .start .acquire none]

/-- The holder has kept the connection, and there is an action that ended the
lease. -/
theorem held_lentAndClaimed :
    ∃ w since id, Run briefLoans {} lentAndClaimed w ∧
      w.history.head? =
        some (Time.ofMillis 51, .claimed 0 (Time.ofMillis 51)) ∧
      (since, .ended id (.lent 0)) ∈ w.history ∧
      ∃ later a before v v', lentAndClaimed = later ++ a :: before ∧
        Run briefLoans {} before v ∧ v.act a = some v' ∧
        v.isValid 0 = true ∧ v'.isValid 0 = false ∧
        v.EndsLease briefLoans 0 since a := by
  have hex : ∃ w, Run briefLoans {} lentAndClaimed w ∧
      w.history.head? =
        some (Time.ofMillis 51, .claimed 0 (Time.ofMillis 51)) ∧
      w.handles[0]?.map (·.valid) = some false :=
    Run.exists_of_replay rfl rfl (by decide +kernel)
  obtain ⟨w, h, hhead, hvalid⟩ := hex
  obtain ⟨x, hx, hv⟩ := Option.map_eq_some_iff.1 hvalid
  obtain ⟨since, id, hmem, hends⟩ := held_of_run h hx
  exact ⟨w, since, id, h, hhead, hmem, hends.resolve_left (by simp [hv])⟩

end Runs

end DatabasePool
