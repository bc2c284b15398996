import DatabasePool.Proofs.Ledger

/-!
# Everything that happens is a deal

Each thing that a task does is followed through the books here, function by
function, so that an account which is `Kept` by the deals is kept by all that
can happen to a world.  No later proof has to look at the tasks again.

The call that a task waits for has to be one that belongs to its stage, for
what its answer means to the books depends on that: `Stage.Fits`.

* `Kept.resume` is about a task that does one thing.
* `Kept.drop` is about a task that is dropped.
* `Kept.act` is about any action, and `Kept.run` about runs.
* `World.loses` says which connections an action loses, and `Lost` which ones
  were lost in a run.
-/

namespace DatabasePool

/-! ## Calls that belong to a stage -/

/-- The call is the one that belongs to the attempt. -/
def Attempt.Fits : Attempt → Prop
  | connecting _ _ call _ => ∃ options, call.call = .connect options
  | undoing e call => call.call = .rollback e.conn
  | pinging e call => ∃ query, call.call = .ping e.conn query
  | discarding call _ => ∃ conn, call.call = .close conn
  | _ => True

/-- The call is the one that belongs to the stage of the return. -/
def Return.Fits : Return → Prop
  | undoing e call => call.call = .rollback e.conn
  | discarding call => ∃ conn, call.call = .close conn
  | _ => True

/-- The calls are those that belong to the stage.  Holders open nothing. -/
def Stage.Fits : Stage → Prop
  | start _ => True
  | acquire _ a => a.Fits
  | giveBack r => r.Fits
  | asking call _ => ∀ options, call.call ≠ .connect options
  | closing _ calls => ∀ call ∈ calls, ∃ conn, call.call = .close conn

/-- The stage to come, if there is one, fits. -/
def Flow.Fits : Flow → Prop
  | again s => s.Fits
  | pause s => s.Fits
  | yield s => s.Fits
  | finish _ => True

/-- A task does one thing, and its account goes on with what it has in hand
from then on. -/
structure Carries (I : Books → List Hand → Prop) (lost : List Nat)
    (hs : List Hand) (x : Flow × World) : Prop where
  kept : I (x.2.books lost) (x.1.hand :: hs)
  fits : x.1.Fits

namespace Books

theorem hasEnded_modify (b : Books) (lease : Nat) :
    HasEnded { b with
      handles := b.handles.modify lease ({ · with valid := false }) }
      lease := by
  intro h hh
  rw [List.getElem?_modify_eq] at hh
  obtain ⟨h', -, rfl⟩ := Option.map_eq_some_iff.1 hh
  rfl

/-- A lease that has ended does not begin again. -/
theorem HasEnded.modify {b : Books} {lease : Nat} (h : b.HasEnded lease)
    (lease' : Nat) :
    HasEnded { b with
      handles := b.handles.modify lease' ({ · with valid := false }) }
      lease := by
  intro x hx
  rw [List.getElem?_modify] at hx
  obtain ⟨y, hy, rfl⟩ := Option.map_eq_some_iff.1 hx
  split
  · rfl
  · exact h y hy

/-- The leases of some loans end, one after the other. -/
def withdraw (b : Books) (loans : List Loan) : Books :=
  loans.foldl (fun b loan => { b with
    handles := b.handles.modify loan.lease ({ · with valid := false }) }) b

@[simp] theorem withdraw_cons (b : Books) (loan : Loan) (loans : List Loan) :
    b.withdraw (loan :: loans) =
      { b with
        handles := b.handles.modify loan.lease
          ({ · with valid := false }) }.withdraw loans := rfl

@[simp] theorem withdraw_pool (b : Books) (loans : List Loan) :
    (b.withdraw loans).pool = b.pool := by
  induction loans generalizing b with
  | nil => rfl
  | cons loan loans ih => exact ih _

theorem withdraw_setPool (b : Books) (p : Pool) (loans : List Loan) :
    { b with pool := p }.withdraw loans =
      { b.withdraw loans with pool := p } := by
  induction loans generalizing b with
  | nil => rfl
  | cons loan loans ih =>
    rw [withdraw_cons, withdraw_cons, ← ih]

theorem HasEnded.withdraw {b : Books} {lease : Nat} (h : b.HasEnded lease)
    (loans : List Loan) : (b.withdraw loans).HasEnded lease := by
  induction loans generalizing b with
  | nil => exact h
  | cons loan loans ih => exact ih (h.modify _)

theorem hasEnded_withdraw (b : Books) (loans : List Loan) :
    ∀ loan ∈ loans, (b.withdraw loans).HasEnded loan.lease := by
  induction loans generalizing b with
  | nil => simp
  | cons loan loans ih =>
    intro x hx
    rcases List.mem_cons.1 hx with rfl | hx
    · exact (hasEnded_modify b x.lease).withdraw loans
    · exact ih _ x hx

end Books

namespace World

theorem books_withdraw (loans : List Loan) (w : World) (lost : List Nat) :
    (loans.foldl (fun w loan =>
      (w.revoke loan.lease).note (.withdrawn loan.lease)) w).books lost =
        (w.books lost).withdraw loans := by
  induction loans generalizing w with
  | nil => rfl
  | cons loan loans ih =>
    rw [List.foldl_cons, ih, books_note, books_revoke]
    rfl

@[simp] theorem books_ringAll (w : World) (lost : List Nat) :
    w.ringAll.books lost = w.books lost := by
  simp [books]

/-- The calls that are left are some of those there were. -/
theorem mem_hearAnswers (calls : List Pending) (w : World) :
    ∀ call ∈ (w.hearAnswers calls).1, call ∈ calls := by
  induction calls generalizing w with
  | nil => simp [hearAnswers]
  | cons call calls ih =>
    rw [hearAnswers]
    split
    · exact fun x hx => List.mem_cons_of_mem _ (ih _ x hx)
    · intro x hx
      rcases List.mem_cons.1 hx with rfl | hx
      · exact List.mem_cons_self
      · exact List.mem_cons_of_mem _ (ih _ x hx)

end World

namespace Kept

variable {c : Config} {I : Books → List Hand → Prop} (hI : Kept c I)
  {w : World} {lost : List Nat} {hs : List Hand}

include hI

open World

/-! ## Requests -/

/-- A slot with nothing in it is given back. -/
theorem freed {b : Books} (h : I b (.closing true [] :: hs)) :
    I { b with pool := b.pool.free } (.nothing :: hs) :=
  hI.deal .done (hI.deal .free h)

theorem discardAttempt {e : Entry} (r : Request) (bad : Bool)
    (h : I (w.books lost) (.entry e :: hs)) :
    Carries I lost hs (w.discardAttempt r e.conn bad) := by
  refine ⟨?_, ⟨e.conn, rfl⟩⟩
  show I ((w.beginCall (.close e.conn)).2.books lost)
    (.closing true [e.conn] :: hs)
  rw [books_beginCall]
  exact hI.deal .discard h

theorem rejectAttempt {e : Entry} (id : Nat) (r : Request)
    (h : I (w.books lost) (.entry e :: hs)) :
    Carries I lost hs (w.rejectAttempt id r e.conn) := by
  refine hI.discardAttempt r true ?_
  rw [books_note]
  exact hI.deal (.count _) h

theorem look (id : Nat) (r : Request) (hc : w.config = c)
    (h : I (w.books lost) (.nothing :: hs)) :
    Carries I lost hs (w.look id r) := by
  have hj : I ((w.join id).books lost) (.nothing :: hs) := by
    rwa [books_join]
  have hcj : (w.join id).config = c := by
    rw [← hc]
    simp
  unfold World.look
  generalize w.join id = v at hj hcj
  subst hcj
  dsimp only
  rcases hoffer : v.pool.offer v.config v.now with ⟨offer, p⟩
  cases Pool.offers hoffer with
  | shutDown => exact ⟨by rwa [books_leave], trivial⟩
  | kept hup hidle => exact ⟨hI.deal (.take hup hidle) hj, trivial⟩
  | room hup hidle hroom =>
    exact ⟨hI.deal (.makeRoom v.now hup hidle hroom) hj, trivial⟩
  | overdue hup hidle hfull htake =>
    refine ⟨?_, trivial⟩
    rename_i loan q
    have hr := hI.deal (.revoke loan.lease) hj
    have ht := hI.deal (.claim v.now hup hidle hfull htake
      (Books.hasEnded_modify _ _)) hr
    have hm := hI.deal (.count (q.metrics.recordOverdue
      (loan.heldFor v.now))) ht
    show I (World.books (note _ _) lost) _
    rw [books_note, books_revoke]
    exact hm
  | nothing => exact ⟨hI.deal (.count _) hj, trivial⟩
  | beyond =>
    refine ⟨?_, trivial⟩
    show I (World.books (World.leave _ id) lost) _
    rw [books_leave]
    exact hI.deal (.count _) hj

/-- A request ends while it has a slot for a new connection. -/
theorem giveUp {record : Record String} (id : Nat)
    (h : I (w.books lost) (.room record :: hs)) :
    I ((w.freeSlot.leave id).books lost) (.nothing :: hs) := by
  rw [books_leave, books_freeSlot]
  exact hI.freed (hI.deal .giveUp h)

theorem connecting (id : Nat) (r : Request) {record : Record String}
    {failures : Nat} {call : Pending} {limit : Option Timer}
    (hf : ∃ options, call.call = .connect options)
    (h : I (w.books lost) (.room record :: hs)) :
    Carries I lost hs (w.connecting id r record failures call limit) := by
  have hv : ∀ {v : World}, (v = w ∨ ∃ span, v = (w.setWait span).2) →
      I (v.books lost) (.room record :: hs) := by
    rintro v (rfl | ⟨span, rfl⟩)
    · exact h
    · exact h
  obtain ⟨options, hcall⟩ := hf
  have ha := books_hearAnswer_connect w lost options
  rw [← hcall] at ha
  rcases hx : w.connecting id r record failures call limit with ⟨flow, v⟩
  cases connects hx with
  | opened hdue hok =>
    rw [hok] at ha
    obtain ⟨he, hb⟩ | ⟨⟨message, he⟩, -⟩ := ha
    · refine ⟨?_, trivial⟩
      rw [hb, Except.ok.inj he]
      exact hI.deal .connect h
    · cases he
  | retry hdue herr =>
    rw [herr] at ha
    obtain ⟨he, -⟩ | ⟨-, hb⟩ := ha
    · cases he
    · exact ⟨by rw [hb]; exact h, trivial⟩
  | refused hdue herr =>
    rw [herr] at ha
    obtain ⟨he, -⟩ | ⟨-, hb⟩ := ha
    · cases he
    · exact ⟨hI.giveUp id (hb ▸ h), trivial⟩
  | timeout h => exact ⟨hI.giveUp id (hv h), trivial⟩
  | wait h => exact ⟨hv h, ⟨options, hcall⟩⟩

theorem recover (r : Request) {e : Entry}
    (h : I (w.books lost) (.entry e :: hs)) :
    Carries I lost hs (w.recover r e) := by
  unfold World.recover
  split
  · exact hI.discardAttempt r false h
  · split
    · exact ⟨h, trivial⟩
    · refine ⟨?_, rfl⟩
      rw [books_beginCall]
      exact h

theorem check (id : Nat) (r : Request) {e : Entry}
    (h : I (w.books lost) (.entry e :: hs)) :
    Carries I lost hs (w.check id r e) := by
  unfold World.check
  split
  · exact hI.discardAttempt r false h
  · split
    · exact hI.rejectAttempt id r h
    · split
      · refine ⟨?_, ⟨_, rfl⟩⟩
        rw [books_beginCall]
        exact h
      · exact ⟨h, trivial⟩

theorem lend (id : Nat) (r : Request) {e : Entry}
    (h : I (w.books lost) (.entry e :: hs)) :
    Carries I lost hs (w.lend id r e) := by
  unfold World.lend
  dsimp only
  split
  · rename_i p hlend
    refine ⟨?_, trivial⟩
    show I (World.books (World.leave _ id) lost) _
    rw [books_leave, books_note]
    exact hI.deal (.lend r.since w.now hlend) h
  · exact hI.discardAttempt r false h

/-- One of the connections that were to be closed has been closed. -/
theorem heard {call : Call} {slot : Bool} {conn : Nat} {conns rest : List Nat}
    (hcall : call = .close conn) (hconns : conns.Perm (conn :: rest))
    (h : I (w.books lost) (.closing slot conns :: hs)) :
    I ((w.hearAnswer call).2.books lost) (.closing slot rest :: hs) := by
  subst hcall
  rw [books_hearAnswer w lost (by simp)]
  exact hI.deal (.hear List.mem_cons_self hconns) (hI.deal (.close conn) h)

theorem discarded (id : Nat) (r : Request) (bad : Bool)
    (h : I (w.books lost) (.closing true [] :: hs)) :
    Carries I lost hs (w.discarded id r bad) := by
  have hb : I ((w.freeSlot.leave id).books lost) (.nothing :: hs) := by
    rw [books_leave, books_freeSlot]
    exact hI.freed h
  obtain ⟨r', he | he⟩ := discarded_eq w id r bad
  all_goals
    rw [he]
    exact ⟨hb, trivial⟩

theorem waiting (id : Nat) (r : Request) (since : Nat) (alarm : Timer)
    (h : I (w.books lost) (.nothing :: hs)) :
    Carries I lost hs (w.waiting id r since alarm) := by
  rcases hx : w.waiting id r since alarm with ⟨flow, v⟩
  cases waits hx with
  | on => exact ⟨h, trivial⟩
  | told | roused | exhausted =>
    refine ⟨?_, trivial⟩
    show I (World.books (World.leave _ id) lost) _
    rw [books_leave]
    exact hI.deal (.count _) h

theorem resumeAcquire (id : Nat) (r : Request) {a : Attempt}
    (hc : w.config = c) (hf : a.Fits)
    (h : I (w.books lost) (a.hand :: hs)) :
    Carries I lost hs (w.resumeAcquire id r a) := by
  cases a with
  | looking => exact hI.look id r hc h
  | opening record failures =>
    refine ⟨?_, ⟨_, rfl⟩⟩
    show I ((w.beginCall _).2.books lost) _
    rw [books_beginCall]
    exact h
  | connecting record failures call limit => exact hI.connecting id r hf h
  | recovering e => exact hI.recover r h
  | undoing e call =>
    have hcall : call.call = .rollback e.conn := hf
    have ha : I ((w.hearAnswer call.call).2.books lost) (.entry e :: hs) := by
      rw [hcall, books_hearAnswer_rollback]
      exact h
    simp only [World.resumeAcquire]
    split
    · split
      all_goals
        rename_i heq
        rw [heq] at ha
      · exact ⟨ha, trivial⟩
      · exact hI.discardAttempt r false ha
    · exact ⟨h, hf⟩
  | checking e => exact hI.check id r h
  | pinging e call =>
    obtain ⟨query, hcall⟩ := hf
    have ha : I ((w.hearAnswer call.call).2.books lost) (.entry e :: hs) := by
      rw [hcall, books_hearAnswer_ping]
      exact h
    simp only [World.resumeAcquire]
    split
    · split
      all_goals
        rename_i heq
        rw [heq] at ha
      · exact ⟨ha, trivial⟩
      · exact hI.rejectAttempt id r ha
    · exact ⟨h, ⟨query, hcall⟩⟩
  | lending e => exact hI.lend id r h
  | discarding call bad =>
    simp only [World.resumeAcquire]
    obtain ⟨conn, hcall⟩ := hf
    rw [Attempt.hand, toClose_cons hcall] at h
    split
    · exact hI.discarded id r bad (hI.heard hcall (.refl _) h)
    · refine ⟨?_, ⟨conn, hcall⟩⟩
      show I _ (.closing true (toClose [call]) :: hs)
      rwa [toClose_cons hcall]
  | waiting since alarm => exact hI.waiting id r since alarm h

/-! ## Returns -/

theorem discardReturn {e : Entry} {conn : Nat}
    (h : I (w.books lost) (.entry e :: hs)) (he : e.conn = conn) :
    Carries I lost hs (w.discardReturn conn) := by
  subst he
  refine ⟨?_, ⟨e.conn, rfl⟩⟩
  show I ((w.beginCall (.close e.conn)).2.books lost)
    (.closing true [e.conn] :: hs)
  rw [books_beginCall]
  exact hI.deal .discard h

theorem startReturn {lease : Nat}
    (h : I (w.books lost) (.lease lease :: hs)) :
    Carries I lost hs (w.startReturn lease) := by
  have htaken : ∀ {loan : Loan} {q : Pool} (m : Metrics),
      w.pool.takeLoan? lease = some (loan, q) →
      I (World.books (note { w with
          pool := { q with metrics := m }.reserve }
          (.returned lease (loan.heldFor w.now))) lost)
        (.entry { loan.entry with
          record := loan.entry.record.giveBack w.now } :: hs) := by
    intro loan q m htake
    rw [books_note]
    exact hI.deal (.count m) (hI.deal (.giveBack w.now htake) h)
  rcases hx : w.startReturn lease with ⟨flow, v⟩
  cases startsReturn hx with
  | tooLate => exact ⟨hI.deal .tooLate h, trivial⟩
  | @discard _ _ m htake => exact hI.discardReturn (htaken m htake) rfl
  | store htake => exact ⟨htaken _ htake, trivial⟩
  | undo htake hcall =>
    refine ⟨?_, hcall⟩
    rw [books_beginCall]
    exact htaken _ htake

theorem store {e : Entry} (hc : w.config = c)
    (h : I (w.books lost) (.entry e :: hs)) :
    Carries I lost hs (w.store e) := by
  unfold World.store
  split
  · rename_i p hstore
    refine ⟨?_, trivial⟩
    rw [hc] at hstore
    show I (World.books (World.ring _) lost) _
    rw [books_ring]
    exact hI.deal (.store hstore) h
  · exact hI.discardReturn h rfl

theorem resumeReturn {r : Return} (hc : w.config = c) (hf : r.Fits)
    (h : I (w.books lost) (r.hand :: hs)) :
    Carries I lost hs (w.resumeReturn r) := by
  cases r with
  | starting lease => exact hI.startReturn h
  | undoing e call =>
    have hcall : call.call = .rollback e.conn := hf
    have ha : I ((w.hearAnswer call.call).2.books lost) (.entry e :: hs) := by
      rw [hcall, books_hearAnswer_rollback]
      exact h
    simp only [World.resumeReturn]
    split
    · split
      all_goals
        rename_i heq
        rw [heq] at ha
      · exact ⟨ha, trivial⟩
      · exact hI.discardReturn ha rfl
    · exact ⟨h, hf⟩
  | storing e => exact hI.store hc h
  | discarding call =>
    simp only [World.resumeReturn]
    obtain ⟨conn, hcall⟩ := hf
    rw [Return.hand, toClose_cons hcall] at h
    split
    · refine ⟨?_, trivial⟩
      rw [books_freeSlot]
      exact hI.freed (hI.heard hcall (.refl _) h)
    · refine ⟨?_, ⟨conn, hcall⟩⟩
      show I _ (.closing true (toClose [call]) :: hs)
      rwa [toClose_cons hcall]

/-! ## Many connections at once -/

/-- The answers are heard of calls to close connections.  What is not answered
stays in hand: `before` has that of the calls that were heard already. -/
theorem hearAnswers {slot : Bool} {calls : List Pending}
    (before : List Nat) {after : List Nat}
    (hf : ∀ call ∈ calls, ∃ conn, call.call = .close conn)
    (h : I (w.books lost)
      (.closing slot (before ++ (toClose calls ++ after)) :: hs)) :
    I ((w.hearAnswers calls).2.books lost)
      (.closing slot
        (before ++ (toClose (w.hearAnswers calls).1 ++ after)) :: hs) := by
  induction calls generalizing w before with
  | nil => exact h
  | cons call calls ih =>
    obtain ⟨conn, hcall⟩ := hf call List.mem_cons_self
    have hf' := fun call h => hf call (List.mem_cons_of_mem _ h)
    rw [toClose_cons hcall] at h
    rw [World.hearAnswers]
    split
    · exact ih before hf' (hI.heard hcall List.perm_middle h)
    · have hk := ih (w := w) (before ++ [conn]) hf' (by simpa using h)
      rw [toClose_cons hcall]
      simpa using hk

/-- Connections are begun to be closed. -/
theorem beginCloses {slot : Bool} {conns : List Nat} (before : List Nat)
    (h : I (w.books lost) (.closing slot (before ++ conns) :: hs)) :
    I ((w.beginCloses conns).2.books lost)
        (.closing slot (before ++ toClose (w.beginCloses conns).1) :: hs) ∧
      ∀ call ∈ (w.beginCloses conns).1, ∃ conn, call.call = .close conn := by
  induction conns generalizing w before with
  | nil =>
    rw [World.beginCloses]
    exact ⟨h, by simp⟩
  | cons conn conns ih =>
    have hb : I ((w.beginCall (.close conn)).2.books lost)
        (.closing slot (before ++ conn :: conns) :: hs) := by
      rwa [books_beginCall]
    rw [World.beginCloses]
    dsimp only
    split
    · exact ih before (hI.heard rfl List.perm_middle hb)
    · obtain ⟨hk, hf⟩ := ih (w := (w.beginCall (.close conn)).2)
        (before ++ [conn]) (by simpa using hb)
      refine ⟨?_, ?_⟩
      · rw [toClose_cons (beginCall_call w (.close conn))]
        simpa using hk
      · intro call hmem
        rcases List.mem_cons.1 hmem with rfl | hmem
        · exact ⟨conn, rfl⟩
        · exact hf call hmem

theorem resumeClosing {todo : List Nat} {calls : List Pending}
    (hf : ∀ call ∈ calls, ∃ conn, call.call = .close conn)
    (h : I (w.books lost) (.closing false (toClose calls ++ todo) :: hs)) :
    Carries I lost hs (w.resumeClosing todo calls) := by
  have hh := hI.hearAnswers [] hf h
  have hfits : ∀ call ∈ (w.hearAnswers calls).1,
      ∃ conn, call.call = .close conn :=
    fun call hmem => hf call (mem_hearAnswers calls w call hmem)
  obtain ⟨hb, hfits'⟩ := hI.beginCloses (toClose (w.hearAnswers calls).1) hh
  unfold World.resumeClosing
  dsimp only
  rw [← toClose_append] at hb
  generalize (w.hearAnswers calls).2.beginCloses todo = begun at *
  split
  · rename_i hnil
    rw [hnil] at hb
    exact ⟨hI.deal .done hb, trivial⟩
  · refine ⟨?_, ?_⟩
    · show I _ (.closing false (toClose (_ ++ _) ++ []) :: hs)
      rwa [List.append_nil]
    · intro call hmem
      rcases List.mem_append.1 hmem with hmem | hmem
      · exact hfits call hmem
      · exact hfits' call hmem

theorem invalidate (h : I (w.books lost) (.nothing :: hs)) :
    Carries I lost hs w.invalidate := by
  refine ⟨?_, by simp [World.invalidate, Flow.Fits, Stage.Fits]⟩
  exact hI.deal .invalidate h

theorem withdraw {b : Books} {h : Hand} (loans : List Loan)
    (hi : I b (h :: hs)) : I (b.withdraw loans) (h :: hs) := by
  induction loans generalizing b with
  | nil => exact hi
  | cons loan loans ih => exact ih (hI.deal (.revoke loan.lease) hi)

/-- The pool ends.  The program ends the leases last, and the books end them
first. -/
theorem shutDown (h : I (w.books lost) (.nothing :: hs)) :
    Carries I lost hs w.shutDown := by
  unfold World.shutDown
  split
  · exact ⟨h, trivial⟩
  · refine ⟨?_, by simp [Flow.Fits, Stage.Fits]⟩
    have hd := hI.withdraw w.pool.active h
    have hended : ∀ loan ∈ ((w.books lost).withdraw w.pool.active).pool.active,
        ((w.books lost).withdraw w.pool.active).HasEnded loan.lease := by
      rw [Books.withdraw_pool]
      exact Books.hasEnded_withdraw _ _
    have hs := hI.deal (.shutDown hended) hd
    rw [Books.withdraw_pool] at hs
    show I (World.books (List.foldl _ _ _) lost) _
    rw [books_withdraw, books_ringAll]
    show I (Books.withdraw { w.books lost with pool := _ } _) _
    rw [Books.withdraw_setPool]
    exact hs

/-! ## Holders -/

omit hI in
theorem ask (lease : Nat) {call : Nat → Call} (raw : Bool)
    (hf : ∀ conn options, call conn ≠ .connect options)
    (h : I (w.books lost) (.nothing :: hs)) :
    Carries I lost hs (w.ask lease call raw) := by
  unfold World.ask
  split
  · refine ⟨?_, hf _⟩
    show I ((w.beginCall _).2.books lost) _
    rwa [books_beginCall]
  · exact ⟨h, trivial⟩

theorem resumeAsking {call : Pending} (raw : Bool)
    (hf : ∀ options, call.call ≠ .connect options)
    (h : I (w.books lost) (.nothing :: hs)) :
    Carries I lost hs (w.resumeAsking call raw) := by
  have ha : I ((w.hearAnswer call.call).2.books lost) (.nothing :: hs) := by
    rw [books_hearAnswer w lost hf]
    cases call.call.closes? with
    | none => exact h
    | some conn => exact hI.deal (.close conn) h
  unfold World.resumeAsking
  split
  · split
    all_goals
      rename_i heq
      rw [heq] at ha
    · exact ⟨ha, trivial⟩
    · split <;> exact ⟨ha, trivial⟩
  · exact ⟨h, hf⟩

theorem close (lease : Nat) (h : I (w.books lost) (.nothing :: hs)) :
    Carries I lost hs (w.close lease) := by
  have hm : I ((w.markClosed lease).books lost) (.nothing :: hs) := by
    rw [books_markClosed]
    exact hI.deal (.mark lease) h
  unfold World.close
  split
  · rename_i hhandle
    split
    · exact ⟨h, trivial⟩
    · dsimp only
      split
      · refine ⟨?_, trivial⟩
        have hlt : lease < w.handles.length :=
          (List.getElem?_eq_some_iff.1 hhandle).1
        rw [books_revoke]
        refine hI.deal (.callIn ?_ (Books.hasEnded_modify _ _))
          (hI.deal (.revoke lease) hm)
        simpa [books, markClosed] using hlt
      · exact ⟨hm, trivial⟩
  · exact ⟨h, trivial⟩

/-! ## Any task -/

theorem begin (op : Operation)
    (h : I (w.books lost) (.nothing :: hs)) :
    Carries I lost hs (w.begin op) := by
  cases op with
  | acquire =>
    simp only [World.begin]
    split <;> exact ⟨h, trivial⟩
  | close lease => exact hI.close lease h
  | ping lease query => exact ask lease false (by simp) h
  | rollback lease =>
    simp only [World.begin, World.rollback]
    split
    · exact ⟨h, trivial⟩
    · exact ask lease false (by simp) h
  | closePhysical lease => exact ask lease true (by simp) h
  | invalidate => exact hI.invalidate h
  | shutDown => exact hI.shutDown h
  | setOptions options => exact hI.invalidate (hI.deal (.choose options) h)

/-- A task does one thing. -/
theorem resume (id : Nat) {s : Stage} (hc : w.config = c) (hf : s.Fits)
    (h : I (w.books lost) (s.hand :: hs)) :
    Carries I lost hs (w.resume id s) := by
  cases s with
  | start op => exact hI.begin op h
  | acquire r a => exact hI.resumeAcquire id r hc hf h
  | giveBack r => exact hI.resumeReturn hc hf h
  | asking call raw => exact hI.resumeAsking raw hf h
  | closing todo calls => exact hI.resumeClosing hf h

/-! ## Tasks that are dropped -/

/-- A task is dropped.  What it was to close is lost, wherever that happens. -/
theorem drop (outside : Bool) (id : Nat) {s : Stage}
    (h : I (w.books lost) (s.hand :: hs)) :
    I ((w.dropStage outside id s).books (s.hand.loses outside ++ lost))
      ((w.strays outside s).map (·.stage.hand) ++ hs) := by
  have hslot := s.hasSlot_hand
  rw [books_dropStage, ← hslot]
  rcases hentry : s.entry? with _ | e
  · have hstrays : w.strays outside s = [] := by
      simp [strays, hentry]
    rw [hstrays]
    rcases hhand : s.hand with _ | lease | r | e | ⟨slot, conns⟩
    all_goals rw [hhand] at h
    · exact hI.leave h
    · exact hI.leave (hI.deal .tooLate h)
    · exact hI.leave (hI.freed (hI.deal .giveUp h))
    · rw [s.entry?_of_hand hhand] at hentry
      cases hentry
    · have hl := hI.deal .lose h
      cases slot
      · exact hI.leave (hI.deal .done hl)
      · exact hI.leave (hI.freed hl)
  · rw [s.hand_of_entry? hentry] at h ⊢
    have hd := hI.deal .discard h
    cases outside
    · have hstrays : (w.strays false s).map (·.stage.hand) =
          [.closing false [e.conn]] := by
        simp [strays, hentry, Stage.hand]
      rw [hstrays]
      exact hI.deal .free hd
    · have hstrays : w.strays true s = [] := by
        simp [strays]
      rw [hstrays]
      exact hI.leave (hI.freed (hI.deal .lose hd))

end Kept

/-! ## Whole worlds -/

/-- The account of a world is right, and all calls fit. -/
structure Sound (c : Config) (I : Books → List Hand → Prop)
    (lost : List Nat) (w : World) : Prop where
  config : w.config = c
  distinct : w.Distinct
  fits : ∀ t ∈ w.tasks, t.stage.Fits
  kept : I (w.books lost) w.hands

namespace World

/-- The connections that are lost because a task is held to its limit. -/
def losesBy (w : World) (limit : Option Limit) (s : Stage) : List Nat :=
  match w.hitsLimit? limit with
  | some outside => s.hand.loses outside
  | none => []

/-- The connections that are lost because a task does one thing. -/
def losesRunning (w : World) (id : Nat) : List Nat :=
  match w.task? id with
  | none => []
  | some t =>
    let (flow, w) := w.resume id t.stage
    flow.waits?.elim [] (w.losesBy t.limit)

/-- The connections that an action loses: those that a task had in hand which
was dropped, if no other task closes them. -/
def loses (w : World) : Action → List Nat
  | .run id => { w with ready := w.ready.erase id }.losesRunning id
  | .cancel outside id =>
    match w.task? id with
    | none => []
    | some t => t.stage.hand.loses outside
  | _ => []

end World

namespace Sound

open World

variable {c : Config} {I : Books → List Hand → Prop} {lost : List Nat}
  {w : World}

theorem of_timed {v : World} {id : Nat} (h : Sound c I lost w)
    (hv : Timed w id v) : Sound c I lost v where
  config := hv.frame.1.trans h.config
  distinct := h.distinct.of_map_id hv.map_id (Nat.le_of_eq hv.nextTask.symm)
  fits := by
    intro t ht
    have hmem : (t.id, t.stage) ∈ w.tasks.map fun t => (t.id, t.stage) :=
      hv.map_stage ▸ List.mem_map.2 ⟨t, ht, rfl⟩
    obtain ⟨u, hu, he⟩ := List.mem_map.1 hmem
    exact (Prod.mk.inj he).2 ▸ h.fits u hu
  kept := by
    obtain ⟨hbooks, hhands⟩ := books_timed lost hv
    rw [hbooks, hhands]
    exact h.kept

/-- Something is written down that is not about the closing of a connection. -/
theorem note (h : Sound c I lost w) {e : Event} (he : e.closed? = none) :
    Sound c I lost (w.note e) where
  config := h.config
  distinct := h.distinct.of_map_id rfl (Nat.le_refl _)
  fits := h.fits
  kept := by
    rw [books_note, he]
    exact h.kept

theorem dropTask (hI : Kept c I) (h : Sound c I lost w) (outside : Bool)
    {id : Nat} {t : Task} (ht : w.task? id = some t) :
    Sound c I (t.stage.hand.loses outside ++ lost)
      (w.dropTask outside t) where
  config := (dropStage_frame w outside t.id t.stage).1.trans h.config
  distinct := h.distinct.dropTask outside t
  fits := by
    rw [dropTask_tasks _ (h.distinct.lt t (mem_of_task? ht))]
    intro u hu
    rcases List.mem_append.1 hu with hu | hu
    · exact h.fits u (mem_others.1 hu).1
    · simp only [strays] at hu
      split at hu
      · simp at hu
      · obtain ⟨e, -, rfl⟩ := List.mem_map.1 hu
        simp [Stage.Fits]
  kept := by
    obtain rfl := id_of_task? ht
    have hk := hI.drop outside t.id
      (hI.perm (h.distinct.perm_hands ht) h.kept)
    rw [hands, dropTask_tasks _ (h.distinct.lt t (mem_of_task? ht)),
      List.map_append]
    exact hI.perm List.perm_append_comm hk

/-- A task that comes to wait is held to its limit. -/
theorem checkLimit (hI : Kept c I) {id : Nat} {t : Task}
    (h : Sound c I lost w) (ht : w.task? id = some t) :
    Sound c I (w.losesBy t.limit t.stage ++ lost) (w.checkLimit id) := by
  obtain rfl := id_of_task? ht
  have hx := checks ht
  generalize w.checkLimit t.id = v at hx ⊢
  unfold losesBy
  cases hx with
  | stays hv hlimit =>
    rw [hlimit]
    exact h.of_timed hv
  | dropped hv hlimit =>
    rw [hlimit]
    obtain ⟨limit, hu⟩ := hv.task? ht
    have hd := (h.of_timed hv).dropTask hI ‹_› hu
    exact hd.note rfl

/-- Who goes on next does not matter. -/
theorem of_queues (h : Sound c I lost w) (ready yielded : List Nat) :
    Sound c I lost { w with ready, yielded } :=
  ⟨h.config, h.distinct.of_queues ready yielded, h.fits, h.kept⟩

theorem follow (hI : Kept c I) {id : Nat} {t : Task} {flow : Flow}
    (hc : w.config = c) (hd : w.Distinct)
    (hfits : ∀ u ∈ w.tasks, u.stage.Fits) (ht : w.task? id = some t)
    (hx : Carries I lost ((w.others id).map (·.stage.hand)) (flow, w)) :
    Sound c I (flow.waits?.elim [] (w.losesBy t.limit) ++ lost)
      (w.follow id flow) := by
  have hset : ∀ {s : Stage}, s.Fits →
      I (w.books lost) (s.hand :: (w.others id).map (·.stage.hand)) →
      Sound c I lost (w.setStage id s) := by
    intro s hf h
    have hd' : (w.setStage id s).Distinct :=
      hd.of_map_id (map_id_setStage ..) (Nat.le_refl _)
    refine ⟨hc, hd', ?_, ?_⟩
    · intro u hu
      obtain ⟨v, hv, rfl⟩ := List.mem_map.1 hu
      split
      · exact hf
      · exact hfits v hv
    · have hp := hd'.perm_hands (task?_setStage s ht)
      rw [others_setStage] at hp
      exact hI.perm hp.symm h
  cases flow with
  | again s => exact (hset hx.fits hx.kept).of_queues (id :: w.ready) _
  | pause s =>
    exact (hset hx.fits hx.kept).checkLimit hI (task?_setStage s ht)
  | yield s =>
    have hy := (hset hx.fits hx.kept).of_queues w.ready (id :: w.yielded)
    have ht' : ({ w.setStage id s with
        ready := w.ready, yielded := id :: w.yielded } : World).task? id =
          some { t with stage := s } := task?_setStage s ht
    exact hy.checkLimit hI ht'
  | finish o =>
    have hr : Sound c I lost (w.removeTask id) :=
      ⟨hc, hd.removeTask id, fun u hu => hfits u (mem_others.1 hu).1,
        hI.leave hx.kept⟩
    exact hr.note rfl

/-- A task does one thing. -/
theorem run (hI : Kept c I) (h : Sound c I lost w) (id : Nat) :
    Sound c I (w.losesRunning id ++ lost) (w.run id) := by
  unfold World.run losesRunning
  cases ht : w.task? id with
  | none => exact h
  | some t =>
    have hu := untouched_resume w id t.stage
    have hx := hI.resume id h.config (h.fits t (mem_of_task? ht))
      (hI.perm (h.distinct.perm_hands ht) h.kept)
    dsimp only
    generalize w.resume id t.stage = x at hu hx ⊢
    have hothers : x.2.others id = w.others id := by
      simp only [others, hu.tasks]
    have ht' : x.2.task? id = some t := by
      simpa only [task?, hu.tasks] using ht
    refine Sound.follow hI (hu.config.trans h.config)
      (h.distinct.of_untouched hu) (hu.tasks ▸ h.fits) ht' ?_
    rw [hothers]
    exact hx

theorem spawn (h : Sound c I lost w) {s : Stage} (limit : Option Limit)
    (hf : s.Fits) (hI : Kept c I)
    (hk : I (w.books lost) (s.hand :: w.hands)) :
    Sound c I lost (w.spawn s limit) where
  config := h.config
  distinct := h.distinct.spawn s limit
  fits := by
    intro t ht
    rcases List.mem_append.1 ht with ht | ht
    · exact h.fits t ht
    · rw [List.mem_singleton] at ht
      subst ht
      exact hf
  kept := by
    have hhands : (w.spawn s limit).hands = w.hands ++ [s.hand] := by
      simp [hands, World.spawn]
    rw [hhands]
    exact hI.perm (List.perm_append_singleton ..).symm hk

theorem revoke (hI : Kept c I) (h : Sound c I lost w) (lease : Nat) :
    Sound c I lost (w.revoke lease) where
  config := h.config
  distinct := h.distinct.of_map_id (by simp) (by simp)
  fits := h.fits
  kept := by
    rw [books_revoke]
    exact hI.leave (hI.deal (.revoke lease) (hI.join h.kept))

theorem forget (hI : Kept c I) (h : Sound c I lost w) (outside : Bool)
    (lease : Nat) : Sound c I lost (w.forget outside lease) := by
  have hr := h.revoke hI lease
  unfold World.forget
  split
  · rename_i hvalid
    cases outside
    · have hlt : lease < w.handles.length := by
        refine Nat.lt_of_not_le fun hle => ?_
        simp [isValid, List.getElem?_eq_none hle] at hvalid
      refine hr.spawn none trivial hI ?_
      refine hI.deal (.callIn ?_ ?_) (hI.join hr.kept)
      · simpa [books, World.revoke] using hlt
      · rw [books_revoke]
        exact Books.hasEnded_modify _ _
    · exact hr
  · exact h

/-- Another server, with as many connections. -/
theorem setServer (h : Sound c I lost w) {s : Server}
    (hs : s.connections.length = w.server.connections.length) :
    Sound c I lost { w with server := s } where
  config := h.config
  distinct := h.distinct.of_map_id rfl (Nat.le_refl _)
  fits := h.fits
  kept := by
    have hbooks : ({ w with server := s } : World).books lost =
        w.books lost := by
      simp only [books, hs]
    rw [hbooks]
    exact h.kept

/-- Whatever happens, the account stays right. -/
theorem act {w' : World} {a : Action} (hI : Kept c I) (h : Sound c I lost w)
    (ha : w.act a = some w') : Sound c I (w.loses a ++ lost) w' := by
  cases a with
  | run id =>
    simp only [World.act] at ha
    split at ha
    · cases ha
      exact (h.of_queues _ _).run hI id
    · cases ha
  | rouse =>
    simp only [World.act] at ha
    split at ha
    · cases ha
      exact h.of_queues _ _
    · cases ha
  | start op limit =>
    simp only [World.act, World.start] at ha
    split at ha
    · cases ha
      exact h.spawn limit trivial hI (hI.join h.kept)
    · cases ha
  | cancel outside id =>
    simp only [World.act] at ha
    cases ht : w.task? id with
    | none =>
      rw [ht] at ha
      cases ha
    | some t =>
      simp only [ht] at ha
      split at ha
      · cases ha
        have hd := h.dropTask hI outside ht
        simp only [loses, ht]
        exact hd.note rfl
      · cases ha
  | forget outside lease =>
    cases ha
    exact h.forget hI outside lease
  | changeServer change =>
    cases ha
    refine h.setServer ?_
    simp [ServerChange.apply]
  | markClosed conn closed =>
    cases ha
    exact h.setServer (Server.markClosed_length ..)
  | markManual conn manual =>
    cases ha
    exact h.setServer (Server.markManual_length ..)
  | advance moment =>
    simp only [World.act] at ha
    split at ha
    · cases ha
      obtain ⟨ready, he⟩ := advanceTo_eq w moment
      rw [he]
      exact ⟨h.config, h.distinct.of_map_id rfl (Nat.le_refl _), h.fits,
        h.kept⟩
    · cases ha

end Sound

/-! ## Runs -/

/-- The connection was lost in a run: a task was dropped that was to close it,
or that had it where no other task could be started. -/
def Lost (c : Config) (s : Server) (as : List Action) (conn : Nat) : Prop :=
  ∃ a before w, (a :: before) <:+ as ∧ Run c s before w ∧ conn ∈ w.loses a

/-- The actions of a run determine where it leads. -/
theorem Run.unique {c : Config} {s : Server} {as : List Action}
    {w w' : World} (h : Run c s as w) (h' : Run c s as w') : w = w' := by
  induction h generalizing w' with
  | new hs hw =>
    cases h' with
    | new _ hw' => exact Except.ok.inj (hw.symm.trans hw')
  | act h ha ih =>
    cases h' with
    | act h' ha' =>
      cases ih h'
      exact Option.some.inj (ha.symm.trans ha')

theorem lost_cons {c : Config} {s : Server} {as : List Action} {a : Action}
    {w : World} (h : Run c s as w) (conn : Nat) :
    Lost c s (a :: as) conn ↔ conn ∈ w.loses a ∨ Lost c s as conn := by
  constructor
  · rintro ⟨b, before, v, hsuffix, hv, hmem⟩
    rcases List.suffix_cons_iff.1 hsuffix with he | hsuffix
    · cases he
      cases h.unique hv
      exact .inl hmem
    · exact .inr ⟨b, before, v, hsuffix, hv, hmem⟩
  · rintro (hmem | ⟨b, before, v, hsuffix, hv, hmem⟩)
    · exact ⟨a, as, w, List.suffix_rfl, h, hmem⟩
    · exact ⟨b, before, v, hsuffix.trans (List.suffix_cons ..), hv, hmem⟩

/-- An account that is kept by the deals and right in the beginning is right
after every run. -/
theorem Kept.run {c : Config} {s : Server} {I : Books → List Hand → Prop}
    (hI : Kept c I)
    (hnew : s.connections = [] → I ((World.new c s).books []) [])
    {as : List Action} {w : World} (h : Run c s as w) :
    ∃ lost, (∀ conn, conn ∈ lost ↔ Lost c s as conn) ∧
      Sound c I lost w := by
  induction h with
  | new hs hw =>
    obtain ⟨hs, -, rfl⟩ := Run.new_iff.1 (.new hs hw)
    refine ⟨[], ?_, rfl, World.distinct_of_run (.new hs hw), ?_, hnew hs⟩
    · simp [Lost]
    · simp [World.new]
  | act h ha ih =>
    obtain ⟨lost, hlost, hsound⟩ := ih
    refine ⟨_, ?_, hsound.act hI ha⟩
    intro conn
    rw [List.mem_append, hlost, lost_cons h]

end DatabasePool
