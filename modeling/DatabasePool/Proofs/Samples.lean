import DatabasePool.Proofs.Averages
import Mathlib.Algebra.Order.BigOperators.Group.List
import Mathlib.Algebra.Order.Group.Nat
import Mathlib.Data.List.Induction

/-!
# The averages and what they are taken from

The metrics keep counts and totals only.  The spans that were added up are
found in the list of all that was booked, the first booking in front.

* `Metrics.sums_booked` says which counts and totals a list of bookings has.
* `Metrics.average_eq_iff` says what an average is without dividing.
* `Metrics.between_average` says that an average lies among its samples.
* `Metrics.averages_booked` says what the averages of a list of bookings are,
  and where they lie.
* `Run.averages_between` says among which spans the averages of a pool lie.
-/

namespace DatabasePool

/-! ## Bookings -/

/-- One booking in the metrics. -/
inductive Booking where
  /-- A connection was handed out. -/
  | request (latency : Nat)
  /-- A connection came back. -/
  | checkout (held : Nat)
  /-- An overdue connection was taken back. -/
  | overdue (held : Nat)
  /-- A request has to wait. -/
  | hadToWait
  /-- A wait came to its end. -/
  | wait (waited : Nat)
  /-- A connection was found bad. -/
  | bad
  deriving DecidableEq, Repr

namespace Booking

/-- The metrics after a booking. -/
def enter (m : Metrics) : Booking → Metrics
  | request latency => m.recordRequest latency
  | checkout held => m.recordCheckout held
  | overdue held => m.recordOverdue held
  | hadToWait => m.recordHadToWait
  | wait waited => m.recordWait waited
  | bad => m.recordBad

/-- The time from request to hand-out. -/
def latency? : Booking → Option Nat
  | request latency => some latency
  | _ => none

/-- How long a connection was held that came back or was taken back. -/
def held? : Booking → Option Nat
  | checkout held | overdue held => some held
  | _ => none

/-- How long a connection was held that was taken back. -/
def claimed? : Booking → Option Nat
  | overdue held => some held
  | _ => none

/-- How long a wait took. -/
def waited? : Booking → Option Nat
  | wait waited => some waited
  | _ => none

end Booking

namespace Metrics

/-- What has been counted when all of these have been booked. -/
def booked (bs : List Booking) : Metrics := bs.foldl Booking.enter {}

/-- The counts and totals are those of the bookings. -/
structure Sums (bs : List Booking) (m : Metrics) : Prop where
  requests : m.requests = (bs.filterMap Booking.latency?).length
  requestTime : m.requestTime = (bs.filterMap Booking.latency?).sum
  checkoutTime : m.checkoutTime = (bs.filterMap Booking.held?).sum
  overdueClaims : m.overdueClaims = (bs.filterMap Booking.claimed?).length
  overdueTime : m.overdueTime = (bs.filterMap Booking.claimed?).sum
  waits : m.waits = bs.count .hadToWait
  waitTime : m.waitTime = (bs.filterMap Booking.waited?).sum
  bad : m.bad = bs.count .bad

/-- One more booking adds to its own counts and totals, and to no others. -/
theorem Sums.enter {bs : List Booking} {m : Metrics} (h : Sums bs m)
    (b : Booking) : Sums (bs ++ [b]) (b.enter m) := by
  cases b <;> constructor <;>
    simp [List.filterMap_cons, Booking.enter, Booking.latency?, Booking.held?,
      Booking.claimed?, Booking.waited?, recordRequest, recordCheckout,
      recordOverdue, recordHadToWait, recordWait, recordBad, h.requests,
      h.requestTime, h.checkoutTime, h.overdueClaims, h.overdueTime, h.waits,
      h.waitTime, h.bad]

/-- The sums are right after any bookings.  The first one is in front, so the
list is taken apart from its end. -/
theorem sums_booked (bs : List Booking) : Sums bs (booked bs) := by
  induction bs using List.reverseRecOn with
  | nil => constructor <;> rfl
  | append_singleton bs b ih =>
    rw [booked, List.foldl_append]
    exact ih.enter b

/-! ## Averages -/

/-- What each one gets of a total that is shared out over a count.  Without a
count that is nothing.  Else it is the greatest number of whole nanoseconds for
which the total is enough, or a word if the total is enough for a word each. -/
structure SharedOut (total count share : Nat) : Prop where
  nothing : count = 0 → share = 0
  whole : 0 < count →
    (count * share ≤ total ∧ total < count * (share + 1)) ∨
      (share = wordMax ∧ count * wordMax ≤ total)
  fits : share ≤ wordMax

/-- An average is a total that is shared out so, and no other number is. -/
theorem average_eq_iff {total count share : Nat} :
    average total count = share ↔ SharedOut total count share := by
  rcases Nat.eq_zero_or_pos count with rfl | hcount
  · constructor
    · rintro rfl
      exact ⟨fun _ => rfl, nofun, Nat.zero_le _⟩
    · intro h
      exact (h.nothing rfl).symm
  rw [average, if_neg (Nat.ne_of_gt hcount)]
  constructor
  · rintro rfl
    refine ⟨fun h => absurd h (Nat.ne_of_gt hcount), fun _ => ?_,
      Nat.min_le_right ..⟩
    rcases Nat.le_total (total / count) wordMax with hle | hle
    · rw [Nat.min_eq_left hle]
      exact .inl ⟨Nat.mul_div_le .., Nat.lt_mul_div_succ total hcount⟩
    · rw [Nat.min_eq_right hle, Nat.mul_comm]
      exact .inr ⟨rfl, (Nat.le_div_iff_mul_le hcount).1 hle⟩
  · rintro ⟨-, hwhole, hfits⟩
    rcases hwhole hcount with ⟨hle, hlt⟩ | ⟨rfl, hle⟩
    · rw [Nat.mul_comm] at hle hlt
      rw [Nat.div_eq_of_lt_le hle hlt]
      exact Nat.min_eq_left hfits
    · rw [Nat.mul_comm] at hle
      exact Nat.min_eq_right ((Nat.le_div_iff_mul_le hcount).2 hle)

/-- A value is zero if there are no samples, else it lies between the least and
the greatest one.  A least sample of more than a word is no bound, since no
average is more than a word. -/
structure Between (samples : List Nat) (value : Nat) : Prop where
  empty : samples = [] → value = 0
  least : ∀ lo, samples.min? = some lo → lo ≤ wordMax → lo ≤ value
  greatest : ∀ hi, samples.max? = some hi → value ≤ hi

theorem between_average (samples : List Nat) :
    Between samples (average samples.sum samples.length) := by
  refine ⟨?_, fun lo hlo hword => ?_, fun hi hhi => ?_⟩
  · rintro rfl
    rfl
  · obtain ⟨hmem, hleast⟩ := List.min?_eq_some_iff.1 hlo
    refine le_average (List.length_pos_of_mem hmem) ?_ hword
    exact samples.card_nsmul_le_sum lo hleast
  · obtain ⟨-, hgreatest⟩ := List.max?_eq_some_iff.1 hhi
    exact average_le (samples.sum_le_card_nsmul hi hgreatest)

/-- Whatever was booked, and in whatever order, the counts and totals are those
of the bookings.  The average time of a request lies among the times of those
that were booked, and the average time of an overdue connection among the times
of these.  Each of the four averages is its total shared out over its count. -/
theorem averages_booked (bs : List Booking) :
    Sums bs (booked bs) ∧
      Between (bs.filterMap Booking.latency?) (booked bs).averageRequest ∧
      Between (bs.filterMap Booking.claimed?) (booked bs).averageOverdue ∧
      SharedOut (booked bs).requestTime (booked bs).requests
        (booked bs).averageRequest ∧
      SharedOut (booked bs).checkoutTime (booked bs).requests
        (booked bs).averageCheckout ∧
      SharedOut (booked bs).overdueTime (booked bs).overdueClaims
        (booked bs).averageOverdue ∧
      SharedOut (booked bs).waitTime (booked bs).waits
        (booked bs).averageWait := by
  have hsums := sums_booked bs
  refine ⟨hsums, ?_, ?_, average_eq_iff.1 rfl, average_eq_iff.1 rfl,
    average_eq_iff.1 rfl, average_eq_iff.1 rfl⟩
  · rw [averageRequest, hsums.requestTime, hsums.requests]
    exact between_average _
  · rw [averageOverdue, hsums.overdueTime, hsums.overdueClaims]
    exact between_average _

/-- The time of a connection that came back and of one that was taken back is
shared out over two hand-outs, and what is left over is dropped. -/
example :
    let m := booked
      [.hadToWait, .request 10, .overdue 61, .wait 8, .request 31,
        .checkout 100]
    m.averageRequest = 20 ∧ m.averageCheckout = 80 ∧ m.averageOverdue = 61 ∧
      m.averageWait = 8 := by
  decide

end Metrics

/-- In every run the average time of a request lies among those of the requests
that were met, and the average time of a claimed loan among those of the claimed
loans. -/
theorem Run.averages_between {c : Config} {s : Server} {as : List Action}
    {w : World} (h : Run c s as w) :
    Metrics.Between
        (w.checkouts.map fun x => x.lent - (World.new c s).askedIn as x.task)
        w.snapshot.metrics.averageRequest ∧
      Metrics.Between
        ((w.checkouts.filter (·.endedBy .claimed)).map (·.lasted))
        w.snapshot.metrics.averageOverdue := by
  have hledger := h.exactLedger
  constructor
  · show Metrics.Between _ w.pool.metrics.averageRequest
    rw [Metrics.averageRequest, hledger.requestTime, hledger.requests,
      ← List.length_map]
    exact Metrics.between_average _
  · show Metrics.Between _ w.pool.metrics.averageOverdue
    rw [Metrics.averageOverdue, hledger.overdueTime, hledger.overdueClaims,
      totalLasted, List.countP_eq_length_filter, ← List.length_map]
    exact Metrics.between_average _

end DatabasePool
