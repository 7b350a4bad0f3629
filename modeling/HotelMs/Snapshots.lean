import HotelMs.RecommendRobust
import HotelMs.Lib.Calendar
import HotelMs.Lib.HalfEven
import HotelMs.Lib.Interleave
import HotelMs.Lib.Rounding
import Mathlib.Algebra.BigOperators.Ring.List

/-!
# The nightly revenue snapshot (`tasks/batch_tasks.py`)

`task_acks_late`: a message leaves the queue for good only when its task has
returned. A worker that crashes before gives it back, also after the commit; so
does the broker when it has waited too long.
-/

namespace HotelMs

open Tables Keyed Queries Runs Interleave Calendar Numerals SqlTypes Rounding

structure SnapshotRow where
  roomType : String
  totalBookings : ℕ
  totalRevenue : ℚ
  deriving DecidableEq

/-- `created_at::date` is the date in the time zone of the session. -/
def snapshotRows (localDate : ℤ → ℤ) (s : Store) (yesterday : ℤ) : Multiset SnapshotRow :=
  groupBy (fun x => x.2.name)
    (fun name rows => ⟨name, rows.card, sumOrZero (fun x => x.1.1.totalPrice) rows⟩)
    (joinOn (fun x => s.roomTypes.get x.2.roomTypeId)
      (joinOn (fun b => s.rooms.get b.roomId)
        ((bag s.bookings).filter fun b =>
          localDate b.createdAt = yesterday ∧ b.status ≠ .cancelled)))

/-- `cents` is the number that `:.2f` prints, in hundredths. -/
structure SnapshotFloat extends PyFloat where
  add : Carrier → Carrier → Carrier
  cents : Carrier → ℤ

section

variable (F : SnapshotFloat)

/-- `f"{x:.2f}"` -/
def SnapshotFloat.twoPlaces (x : F.Carrier) : List Char :=
  let cents := (F.cents x).natAbs
  (if F.lt x (F.ofRat 0) then ['-'] else []) ++
    (natText (cents / 100) ++ '.' :: padded 2 (cents % 100))

/-- `sum` adds from the left. -/
def totalRev (rows : List SnapshotRow) : F.Carrier :=
  rows.foldl (fun acc r => F.add acc (F.ofRat r.totalRevenue)) (F.ofRat 0)

def totalBk (rows : List SnapshotRow) : ℕ := (rows.map SnapshotRow.totalBookings).sum

def partText (r : SnapshotRow) : List Char :=
  r.roomType.toList ++ ':' :: (natText r.totalBookings ++ ':' ::
    F.twoPlaces (F.ofRat r.totalRevenue))

def dateWord (day : ℤ) : List Char := "date=".toList ++ isoText day

def snapshotText (day : ℤ) (bookings : ℕ) (revenue : F.Carrier) (rows : List SnapshotRow) :
    List Char :=
  dateWord day ++ ' ' :: ("bookings=".toList ++ natText bookings ++ " revenue=".toList ++
    F.twoPlaces revenue ++ ' ' :: " | ".toList.intercalate (rows.map (partText F)))

def snapshotLog (now yesterday : ℤ) (rows : List SnapshotRow) : ActivityLog where
  id := 0
  userId := none
  action := "NIGHTLY_SNAPSHOT"
  resource := some "revenue"
  resourceId := none
  detail := some (String.ofList (snapshotText F yesterday (totalBk rows) (totalRev F rows) rows))
  ipAddress := none
  createdAt := now

/-! ### Deliveries -/

structure SnapshotQueue where
  store : Store
  waiting : ℕ

/-- `returned` is not acknowledged yet. -/
inductive SnapshotTask
  | idle
  | started
  | queried (now yesterday : ℤ) (rows : List SnapshotRow)
  | returned

/-- `rows` is the answer of the query, in the order of the database. -/
inductive SnapshotMove
  | beat
  | deliver
  | query (today now : ℤ) (rows : List SnapshotRow)
  | commit
  | fail
  | acknowledge
  | crash
  | redeliver
  | other (s : Store)

def SnapshotQueue.giveBack (q : SnapshotQueue) : SnapshotQueue :=
  { q with waiting := q.waiting + 1 }

/-- The rest of the program writes no activity logs. -/
def SnapshotQueue.otherWrites (q : SnapshotQueue) (s : Store) : SnapshotQueue :=
  { q with store := { s with activityLogs := q.store.activityLogs } }

def SnapshotQueue.insertLog (q : SnapshotQueue) (log : ActivityLog) : SnapshotQueue :=
  { q with store := { q.store with activityLogs := q.store.activityLogs.insert log } }

def snapshotStep (localDate : ℤ → ℤ) (move : SnapshotMove) (q : SnapshotQueue)
    (t : SnapshotTask) : SnapshotTask × SnapshotQueue :=
  match move, t with
  | .beat, t => (t, q.giveBack)
  | .other s, t => (t, q.otherWrites s)
  | .deliver, .idle =>
    if q.waiting = 0 then (.idle, q) else (.started, { q with waiting := q.waiting - 1 })
  | .query today now rows, .started =>
    let yesterday := today - 1
    if (rows : Multiset SnapshotRow) = snapshotRows localDate q.store yesterday then
      (.queried now yesterday rows, q)
    else (.started, q)
  | .commit, .queried now yesterday rows =>
    if rows = [] then (.returned, q)
    else (.returned, q.insertLog (snapshotLog F now yesterday rows))
  | .fail, .started => (.returned, q)
  | .fail, .queried _ _ _ => (.returned, q)
  | .acknowledge, .returned => (.idle, q)
  | .crash, .idle => (.idle, q)
  | .crash, _ => (.idle, q.giveBack)
  | .redeliver, .idle => (.idle, q)
  | .redeliver, t => (t, q.giveBack)
  | _, t => (t, q)

def snapshotStart (s : Store) (waiting : ℕ) : Shared SnapshotQueue SnapshotTask where
  data := ⟨s, waiting⟩
  tasks := fun _ => .idle

/-! ### What is promised, and when -/

/-- The first word of a snapshot's text, `date=` and the date. -/
def snapshotDate (r : ActivityLog) : Option (List Char) :=
  if r.action = "NIGHTLY_SNAPSHOT" then
    r.detail.map fun detail => detail.toList.takeWhile (· ≠ ' ')
  else none

def OneSnapshotEach (s : Store) : Prop := s.activityLogs.UniqueBy snapshotDate

/-- The totals that are printed are the sums of the parts that are printed. -/
def TotalsAdd (r : ActivityLog) : Prop :=
  ∃ day bookings revenue rows,
    r.detail = some (String.ofList (snapshotText F day bookings revenue rows)) ∧
    bookings = (rows.map SnapshotRow.totalBookings).sum ∧
    F.cents revenue = (rows.map fun r => F.cents (F.ofRat r.totalRevenue)).sum

def SnapshotsAdd (s : Store) : Prop :=
  ∀ r ∈ s.activityLogs.rows, r.action = "NIGHTLY_SNAPSHOT" → TotalsAdd F r

/-- What is committed is the first snapshot of its date. -/
def NoSnapshotYet (y : Shared SnapshotQueue SnapshotTask) (e : Turn SnapshotMove) : Prop :=
  match e.env, y.tasks e.task with
  | .commit, .queried _ yesterday rows =>
    rows ≠ [] → ∀ r ∈ y.data.store.activityLogs.rows, snapshotDate r ≠ some (dateWord yesterday)
  | _, _ => True

/-- Prices are `numeric(10, 2)`. With `k` room types a day's revenue below
`2 ^ 44 / k` is added up without a cent's error. -/
structure DayFits (localDate : ℤ → ℤ) (s : Store) (yesterday : ℤ) : Prop where
  prices : ∀ b ∈ s.bookings.rows, HasScale 2 b.totalPrice
  bound : ∃ n ≤ 44, (snapshotRows localDate s yesterday).card * 2 ^ n ≤ 2 ^ 44 ∧
    sumOrZero (fun r => |r.totalRevenue|) (snapshotRows localDate s yesterday) ≤ 2 ^ n

def AmountsFit (localDate : ℤ → ℤ) (y : Shared SnapshotQueue SnapshotTask)
    (e : Turn SnapshotMove) : Prop :=
  match e.env with
  | .query today _ _ => DayFits localDate y.data.store (today - 1)
  | _ => True

/-! ### One snapshot of each date -/

theorem ne_blank_of_isDigit {c : Char} (h : c.isDigit = true) : c ≠ ' ' := by
  rintro rfl
  exact absurd h (by decide)

theorem isoText_no_blank (n : ℤ) : ∀ c ∈ isoText n, c ≠ ' ' := by
  have hpad : ∀ w k, ∀ c ∈ padded w k, c ≠ ' ' := fun w k c hc =>
    ne_blank_of_isDigit (isDigit_padded hc)
  have hyear : ∀ y, ∀ c ∈ yearText y, c ≠ ' ' := by
    intro y c hc
    unfold yearText at hc
    split at hc
    · exact hpad _ _ c hc
    · rcases List.mem_cons.mp hc with rfl | hc
      · split <;> decide
      · exact hpad _ _ c hc
  intro c hc
  simp only [isoText, Date.text, List.mem_append, List.mem_cons] at hc
  rcases hc with hc | rfl | hc | rfl | hc
  · exact hyear _ c hc
  · decide
  · exact hpad _ _ c hc
  · decide
  · exact hpad _ _ c hc

theorem dateWord_no_blank (day : ℤ) : ∀ c ∈ dateWord day, c ≠ ' ' := by
  intro c hc
  rcases List.mem_append.mp hc with hc | hc
  · have hall : "date=".toList.all (fun c => c != ' ') = true := by decide
    exact bne_iff_ne.mp (List.all_eq_true.mp hall c hc)
  · exact isoText_no_blank day c hc

theorem dateWord_injective {day day' : ℤ} (h : day.natAbs ≤ 3 * 10 ^ 8)
    (h' : day'.natAbs ≤ 3 * 10 ^ 8) (heq : dateWord day = dateWord day') : day = day' :=
  isoText_injective h h' (List.append_cancel_left heq)

theorem snapshotDate_log (now yesterday id : ℤ) (rows : List SnapshotRow) :
    snapshotDate (stamp id (snapshotLog F now yesterday rows)) = some (dateWord yesterday) := by
  have hword : ∀ rest, (dateWord yesterday ++ ' ' :: rest).takeWhile (fun c => decide (c ≠ ' ')) =
      dateWord yesterday := by
    intro rest
    rw [List.takeWhile_append_of_pos fun c hc => decide_eq_true (dateWord_no_blank _ c hc)]
    rw [List.takeWhile_cons_of_neg (by decide), List.append_nil]
  show Option.map _ (some _) = _
  rw [Option.map_some, String.toList_ofList]
  exact congrArg some (hword _)

variable {F} {localDate : ℤ → ℤ}

theorem logs_of_ne_commit {move : SnapshotMove} (h : move ≠ .commit) (q : SnapshotQueue)
    (t : SnapshotTask) :
    (snapshotStep F localDate move q t).2.store.activityLogs = q.store.activityLogs := by
  cases move with
  | commit => exact absurd rfl h
  | beat => rfl
  | other s => rfl
  | deliver =>
    cases t with
    | idle =>
      simp only [snapshotStep]
      split <;> rfl
    | _ => rfl
  | query today now rows =>
    cases t with
    | started =>
      simp only [snapshotStep]
      split <;> rfl
    | _ => rfl
  | fail => cases t <;> rfl
  | acknowledge => cases t <;> rfl
  | crash => cases t <;> rfl
  | redeliver => cases t <;> rfl

variable (F localDate) in
/-- Only a commit of something writes an activity log. -/
theorem snapshotStep_logs (move : SnapshotMove) (q : SnapshotQueue) (t : SnapshotTask) :
    (∃ now yesterday rows, move = .commit ∧ t = .queried now yesterday rows ∧ rows ≠ [] ∧
      (snapshotStep F localDate move q t).2 = q.insertLog (snapshotLog F now yesterday rows)) ∨
    (∀ now yesterday rows, move = .commit → t = .queried now yesterday rows → rows = []) ∧
      (snapshotStep F localDate move q t).2.store.activityLogs = q.store.activityLogs := by
  by_cases hmove : move = .commit
  · subst hmove
    cases t with
    | queried now yesterday rows =>
      by_cases hrows : rows = []
      · refine Or.inr ⟨fun _ _ _ _ ht => ?_, ?_⟩
        · cases ht
          exact hrows
        · simp only [snapshotStep, if_pos hrows]
      · refine Or.inl ⟨now, yesterday, rows, rfl, rfl, hrows, ?_⟩
        simp only [snapshotStep, if_neg hrows]
    | idle => exact Or.inr ⟨fun _ _ _ _ ht => (by cases ht), rfl⟩
    | started => exact Or.inr ⟨fun _ _ _ _ ht => (by cases ht), rfl⟩
    | returned => exact Or.inr ⟨fun _ _ _ _ ht => (by cases ht), rfl⟩
  · exact Or.inr ⟨fun _ _ _ hm => absurd hm hmove, logs_of_ne_commit hmove q t⟩

theorem oneSnapshotEach_step (y : Shared SnapshotQueue SnapshotTask) (e : Turn SnapshotMove)
    (h : OneSnapshotEach y.data.store) :
    OneSnapshotEach (turnStep (snapshotStep F localDate) y e).data.store ↔ NoSnapshotYet y e := by
  show OneSnapshotEach (snapshotStep F localDate e.env y.data (y.tasks e.task)).2.store ↔ _
  rcases snapshotStep_logs F localDate e.env y.data (y.tasks e.task) with hcommit | hsame
  · obtain ⟨now, yesterday, rows, hmove, ht, hrows, hnext⟩ := hcommit
    unfold NoSnapshotYet
    rw [hnext, hmove, ht]
    refine (Table.uniqueBy_insert_iff _ h).trans ?_
    rw [snapshotDate_log]
    exact ⟨fun hfree _ => hfree rfl, fun hfree _ => hfree hrows⟩
  · have hyet : NoSnapshotYet y e := by
      unfold NoSnapshotYet
      split
      next now yesterday rows hmove ht =>
        exact fun hrows => absurd (hsame.1 now yesterday rows hmove ht) hrows
      next => trivial
    unfold OneSnapshotEach
    rw [hsame.2]
    exact iff_of_true h hyet

end

/-! ### The totals are the sums of the parts -/

/-- Additions are rounded, and so is what is printed. -/
structure CentFloat extends SnapshotFloat where
  value : Carrier → ℚ
  ofRat_rounds : ∀ q, Rounds (value (ofRat q)) q
  add_rounds : ∀ x y, Rounds (value (add x y)) (value x + value y)
  cents_near : ∀ x, |value x * 100 - cents x| ≤ 1 / 2

section

variable (F : CentFloat)

theorem cents_eq {x : F.Carrier} {q : ℚ} (hq : HasScale 2 q) (h : |F.value x - q| < 1 / 200) :
    (F.cents x : ℚ) = q * 10 ^ 2 := by
  obtain ⟨c, hc⟩ := hq
  have hnear : |F.value x * 100 - c| < 1 / 2 := by
    rw [← hc, show F.value x * 100 - q * 10 ^ 2 = (F.value x - q) * 100 by ring, abs_mul]
    norm_num
    linarith
  rw [hc, eq_of_near (F.cents_near x) hnear]

variable {rows : List SnapshotRow} {n : ℕ}

theorem abs_le_day (hday : (rows.map fun r => |r.totalRevenue|).sum ≤ 2 ^ n) :
    ∀ r ∈ rows, |r.totalRevenue| ≤ 2 ^ n := by
  intro r hr
  refine le_trans ?_ hday
  exact List.single_le_sum (fun v hv => by
    obtain ⟨r', _, rfl⟩ := List.mem_map.mp hv
    exact abs_nonneg _) _ (List.mem_map_of_mem hr)

/-- Two roundings for each room type. -/
theorem totalRev_near (hn : n ≤ 44) (hrows : rows.length * 2 ^ n ≤ 2 ^ 44)
    (hday : (rows.map fun r => |r.totalRevenue|).sum ≤ 2 ^ n) :
    |F.value (totalRev F.toSnapshotFloat rows) - (rows.map SnapshotRow.totalRevenue).sum| <
      1 / 200 := by
  have hzero := F.ofRat_rounds 0 0 (by decide) (by norm_num)
  have hpow : (0 : ℚ) < 2 ^ n := by positivity
  have hone : (1 : ℚ) ≤ 2 ^ n := one_le_pow₀ (by norm_num)
  have hlen : (rows.length : ℚ) * 2 ^ n ≤ 2 ^ 44 := by exact_mod_cast hrows
  have hadd : ∀ x y, |F.value x + F.value y| ≤ 2 * 2 ^ n →
      |F.value (F.add x y) - (F.value x + F.value y)| ≤ 2 ^ (n + 1) / 2 ^ 54 := by
    intro x y hxy
    refine F.add_rounds x y (n + 1) (by omega) ?_
    rw [pow_succ, mul_comm]
    exact hxy
  have hterm : ∀ r ∈ rows, |F.value (F.ofRat r.totalRevenue) - r.totalRevenue| ≤
      2 ^ n / 2 ^ 54 := fun r hr =>
    F.ofRat_rounds r.totalRevenue n (by omega) (abs_le_day hday r hr)
  have hlost : (2 : ℚ) ^ 0 / 2 ^ 54 + rows.length * (2 ^ (n + 1) / 2 ^ 54 + 2 ^ n / 2 ^ 54) <
      1 / 200 := by
    have hdouble : (2 : ℚ) ^ (n + 1) = 2 ^ n * 2 := pow_succ 2 n
    rw [hdouble]
    linarith
  have hbound : |(0 : ℚ)| + (rows.map fun r => |r.totalRevenue|).sum ≤ 2 ^ n := by
    rw [abs_zero, zero_add]
    exact hday
  have hsum := foldl_add_near (by positivity) (by positivity) hadd hterm hzero hbound
    (by linarith)
  rw [zero_add] at hsum
  exact hsum.trans_lt hlost

theorem cents_totalRev (hscale : ∀ r ∈ rows, HasScale 2 r.totalRevenue) (hn : n ≤ 44)
    (hrows : rows.length * 2 ^ n ≤ 2 ^ 44)
    (hday : (rows.map fun r => |r.totalRevenue|).sum ≤ 2 ^ n) :
    F.cents (totalRev F.toSnapshotFloat rows) =
      (rows.map fun r => F.cents (F.ofRat r.totalRevenue)).sum := by
  have hsum : HasScale 2 (Multiset.map SnapshotRow.totalRevenue rows).sum :=
    HasScale.sum_map hscale
  rw [Multiset.map_coe, Multiset.sum_coe] at hsum
  have htotal := cents_eq F hsum (totalRev_near F hn hrows hday)
  have hpart : ∀ r ∈ rows, (F.cents (F.ofRat r.totalRevenue) : ℚ) =
      r.totalRevenue * 10 ^ 2 := by
    intro r hr
    have hlen : (1 : ℚ) ≤ rows.length := by
      exact_mod_cast List.length_pos_of_mem hr
    have hpow : (2 : ℚ) ^ n ≤ 2 ^ 44 := pow_le_pow_right₀ (by norm_num) hn
    refine cents_eq F (hscale r hr) (lt_of_le_of_lt
      (F.ofRat_rounds r.totalRevenue n (by omega) (abs_le_day hday r hr)) ?_)
    linarith
  have hcast : (((rows.map fun r => F.cents (F.ofRat r.totalRevenue)).sum : ℤ) : ℚ) =
      ((rows.map fun r => F.cents (F.ofRat r.totalRevenue)).map Int.cast).sum :=
    map_list_sum (Int.castRingHom ℚ) _
  apply Int.cast_injective (α := ℚ)
  rw [htotal, hcast, List.map_map, ← List.sum_map_mul_right]
  exact congrArg List.sum (List.map_congr_left fun r hr => (hpart r hr).symm)

theorem hasScale_snapshotRows {localDate : ℤ → ℤ} {s : Store} {yesterday : ℤ}
    (hprices : ∀ b ∈ s.bookings.rows, HasScale 2 b.totalPrice) :
    ∀ r ∈ snapshotRows localDate s yesterday, HasScale 2 r.totalRevenue := by
  intro r hr
  unfold snapshotRows groupBy at hr
  obtain ⟨name, _, rfl⟩ := Multiset.mem_map.mp hr
  dsimp only [sumOrZero]
  refine HasScale.sum_map fun x hx => hprices x.1.1 ?_
  have hjoined := (mem_joinOn.mp (Multiset.mem_filter.mp hx).1).1
  exact (Multiset.mem_filter.mp (mem_joinOn.mp hjoined).1).1

theorem cents_of_dayFits {localDate : ℤ → ℤ} {s : Store} {yesterday : ℤ}
    (h : DayFits localDate s yesterday)
    (hrows : (rows : Multiset SnapshotRow) = snapshotRows localDate s yesterday) :
    F.cents (totalRev F.toSnapshotFloat rows) =
      (rows.map fun r => F.cents (F.ofRat r.totalRevenue)).sum := by
  obtain ⟨n, hn, hcard, hday⟩ := h.bound
  rw [← hrows] at hcard hday
  rw [Multiset.coe_card] at hcard
  unfold sumOrZero at hday
  rw [Multiset.map_coe, Multiset.sum_coe] at hday
  have hscale : ∀ r ∈ snapshotRows localDate s yesterday, HasScale 2 r.totalRevenue :=
    hasScale_snapshotRows h.prices
  rw [← hrows] at hscale
  exact cents_totalRev F hscale hn hcard hday

/-- What a delivery has read adds up. -/
def TaskAdds (t : SnapshotTask) : Prop :=
  ∀ now yesterday rows, t = .queried now yesterday rows →
    F.cents (totalRev F.toSnapshotFloat rows) =
      (rows.map fun r => F.cents (F.ofRat r.totalRevenue)).sum

def AllAdds (y : Shared SnapshotQueue SnapshotTask) : Prop :=
  SnapshotsAdd F.toSnapshotFloat y.data.store ∧ ∀ i, TaskAdds F (y.tasks i)

variable {F} {localDate : ℤ → ℤ}

theorem TaskAdds.of_ne {t : SnapshotTask}
    (h : ∀ now yesterday rows, t ≠ .queried now yesterday rows) : TaskAdds F t :=
  fun now yesterday rows ht => absurd ht (h now yesterday rows)

theorem taskAdds_step (move : SnapshotMove) (q : SnapshotQueue) {t : SnapshotTask}
    (ht : TaskAdds F t)
    (hfits : ∀ today now rows, move = .query today now rows →
      DayFits localDate q.store (today - 1)) :
    TaskAdds F (snapshotStep F.toSnapshotFloat localDate move q t).1 := by
  cases move with
  | beat => exact ht
  | other s => exact ht
  | deliver =>
    cases t with
    | idle =>
      simp only [snapshotStep]
      split <;> exact .of_ne nofun
    | _ => exact ht
  | query today now rows =>
    cases t with
    | started =>
      simp only [snapshotStep]
      split
      next hrows =>
        intro now' yesterday rows' heq
        cases heq
        exact cents_of_dayFits F (hfits today now rows rfl) hrows
      next => exact .of_ne nofun
    | _ => exact ht
  | commit =>
    cases t with
    | queried now yesterday rows =>
      simp only [snapshotStep]
      split <;> exact .of_ne nofun
    | _ => exact ht
  | fail =>
    cases t with
    | started => exact .of_ne nofun
    | queried now yesterday rows => exact .of_ne nofun
    | _ => exact ht
  | acknowledge =>
    cases t with
    | returned => exact .of_ne nofun
    | _ => exact ht
  | crash => cases t <;> exact .of_ne nofun
  | redeliver => cases t <;> exact ht

theorem totalsAdd_log {now yesterday id : ℤ} {rows : List SnapshotRow}
    (h : F.cents (totalRev F.toSnapshotFloat rows) =
      (rows.map fun r => F.cents (F.ofRat r.totalRevenue)).sum) :
    TotalsAdd F.toSnapshotFloat
      (stamp id (snapshotLog F.toSnapshotFloat now yesterday rows)) :=
  ⟨yesterday, totalBk rows, totalRev F.toSnapshotFloat rows, rows, rfl, rfl, h⟩

theorem allAdds_step (y : Shared SnapshotQueue SnapshotTask) (e : Turn SnapshotMove)
    (h : AllAdds F y) (hfits : AmountsFit localDate y e) :
    AllAdds F (turnStep (snapshotStep F.toSnapshotFloat localDate) y e) := by
  obtain ⟨hlogs, htasks⟩ := h
  constructor
  · intro r hr hsnapshot
    change r ∈ (snapshotStep F.toSnapshotFloat localDate e.env y.data
      (y.tasks e.task)).2.store.activityLogs.rows at hr
    rcases snapshotStep_logs F.toSnapshotFloat localDate e.env y.data (y.tasks e.task) with
      hcommit | hsame
    · obtain ⟨now, yesterday, rows, _, ht, _, hnext⟩ := hcommit
      rw [hnext] at hr
      rcases (Table.mem_insert _).mp hr with hold | rfl
      · exact hlogs r hold hsnapshot
      · exact totalsAdd_log (htasks e.task now yesterday rows ht)
    · rw [hsame.2] at hr
      exact hlogs r hr hsnapshot
  · intro i
    by_cases hi : i = e.task
    · rw [hi, tasks_self]
      refine taskAdds_step e.env y.data (htasks e.task) fun today now rows hmove => ?_
      unfold AmountsFit at hfits
      rwa [hmove] at hfits
    · rw [tasks_of_ne y hi]
      exact htasks i

theorem snapshots_iff (F : CentFloat) (localDate : ℤ → ℤ) {s : Store} (waiting : ℕ)
    (hone : OneSnapshotEach s) (hadds : SnapshotsAdd F.toSnapshotFloat s)
    (es : List (Turn SnapshotMove)) :
    (Always (turnStep (snapshotStep F.toSnapshotFloat localDate))
        (fun y => OneSnapshotEach y.data.store) (snapshotStart s waiting) es ↔
      Along (turnStep (snapshotStep F.toSnapshotFloat localDate)) NoSnapshotYet
        (snapshotStart s waiting) es) ∧
    (Along (turnStep (snapshotStep F.toSnapshotFloat localDate)) (AmountsFit localDate)
        (snapshotStart s waiting) es →
      Always (turnStep (snapshotStep F.toSnapshotFloat localDate))
        (fun y => SnapshotsAdd F.toSnapshotFloat y.data.store) (snapshotStart s waiting) es) := by
  constructor
  · refine always_iff_along (J := fun _ => True) (Q := fun _ _ => True) (fun _ _ _ => trivial)
      (fun y e _ _ h => oneSnapshotEach_step y e h) ?_ trivial hone
    exact along_of_forall fun _ _ _ => trivial
  · intro hfits
    have hstart : AllAdds F (snapshotStart s waiting) :=
      ⟨hadds, fun _ => .of_ne nofun⟩
    have hall := always_of_along (fun y e => allAdds_step y e) hstart hfits
    exact hall.mono fun y hy => hy.1

def exactSnapshots : CentFloat where
  toPyFloat := sampleFloat
  add := fun (x y : ℚ) => x + y
  cents := fun (x : ℚ) => HalfEven.halfEven (x * 100)
  value := fun (x : ℚ) => x
  ofRat_rounds := fun q => .refl q
  add_rounds := fun (x y : ℚ) => .refl (x + y)
  cents_near := fun (x : ℚ) => HalfEven.abs_sub_halfEven_le (x * 100)

def utcDate (t : ℤ) : ℤ := t / 86400 + 719163

def nightMoves : List (Turn SnapshotMove) :=
  [⟨0, .deliver⟩, ⟨0, .query 719164 93600 [⟨"Double", 1, 200⟩]⟩, ⟨0, .commit⟩]

instance (y : Shared SnapshotQueue SnapshotTask) (e : Turn SnapshotMove) :
    Decidable (NoSnapshotYet y e) := by
  unfold NoSnapshotYet
  split <;> infer_instance

theorem snapshots_one_night :
    Always (turnStep (snapshotStep exactSnapshots.toSnapshotFloat utcDate))
      (fun y => OneSnapshotEach y.data.store) (snapshotStart bookedStore 1)
      (nightMoves ++ [⟨0, .acknowledge⟩]) ∧
    Always (turnStep (snapshotStep exactSnapshots.toSnapshotFloat utcDate))
      (fun y => SnapshotsAdd exactSnapshots.toSnapshotFloat y.data.store)
      (snapshotStart bookedStore 1) (nightMoves ++ [⟨0, .acknowledge⟩]) := by
  have hempty : bookedStore.activityLogs.rows = [] := by decide +kernel
  have hone : OneSnapshotEach bookedStore := by
    intro r hr
    rw [hempty] at hr
    cases hr
  have hadds : SnapshotsAdd exactSnapshots.toSnapshotFloat bookedStore := by
    intro r hr
    rw [hempty] at hr
    cases hr
  have hfits : DayFits utcDate bookedStore 719163 := by
    refine ⟨fun b hb => ⟨20000, ?_⟩, 8, by decide, by decide +kernel, by decide +kernel⟩
    revert b
    decide +kernel
  have h := snapshots_iff exactSnapshots utcDate 1 hone hadds (nightMoves ++ [⟨0, .acknowledge⟩])
  exact ⟨h.1.mpr (by decide +kernel), h.2 ⟨trivial, hfits, trivial, trivial, trivial⟩⟩

/-- The worker crashes when it has committed and not acknowledged. -/
theorem snapshot_twice :
    ¬Always (turnStep (snapshotStep exactSnapshots.toSnapshotFloat utcDate))
      (fun y => OneSnapshotEach y.data.store) (snapshotStart bookedStore 0)
      (⟨0, .beat⟩ :: nightMoves ++ ⟨0, .crash⟩ :: nightMoves) := by
  intro h
  have hlast := h.last
  revert hlast
  unfold OneSnapshotEach
  decide +kernel

end

end HotelMs
