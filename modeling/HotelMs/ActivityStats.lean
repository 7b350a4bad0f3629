import HotelMs.ActivityLogs
import HotelMs.ClientTokens
import HotelMs.Lib.Counter

/-!
# Figures of the activity log (`api/v1/admin/reports.py`)

`activity_log_stats` counts the logs of the last days by severity, hour, action,
user and day; `activity_logs` lists them. Time stamps are in seconds; `zone` is
the offset of the database session, in which the time stamps come.
-/

namespace HotelMs

open Tables Paging Counter

/-- `Query(30, ge=1, le=90)`. -/
structure StatsDays where
  days : ℕ
  ge : 1 ≤ days
  le : days ≤ 90

structure TopUser where
  userId : ℤ
  name : String
  role : String
  count : ℕ
  deriving DecidableEq

/-- A day stands for its text. -/
structure LogStats where
  total : ℕ
  severityCounts : Dict String ℕ
  hourlyDistribution : List (ℕ × ℕ)
  topUsers : List TopUser
  topActions : List (String × ℕ)
  trend : List (ℤ × ℕ)

def severityNames : List String := ["critical", "high", "medium", "low", "info"]

def hourOf (zone : ℤ) (log : ActivityLog) : ℕ := ((log.createdAt + zone) % 86400 / 3600).toNat

def dayOf (zone : ℤ) (log : ActivityLog) : ℤ := (log.createdAt + zone) / 86400

def actionOf (ext : Ext) (log : ActivityLog) : String :=
  ext.lower (if log.action = "" then "other" else log.action)

/-- `if uid` -/
def userOf (log : ActivityLog) : Option ℤ := log.userId.filter (· ≠ 0)

def topUser (s : Store) (counts : Dict ℤ ℕ) (userId : ℤ) : TopUser where
  userId := userId
  name := ((s.users.get userId).map fun u => orElse u.fullName u.email).getD s!"User #{userId}"
  role := ((s.users.get userId).map fun u => u.role.value).getD "unknown"
  count := count counts userId

section

variable (ext : Ext) (zone : ℤ) (s : Store)

/-- What is made of the logs that were read; `clock i` is the answer to the `i`-th
`datetime.now(timezone.utc)`. -/
def logStats (clock : ℕ → ℤ) (logs : List ActivityLog) : LogStats :=
  let userCounts := tally Dict.empty (logs.filterMap userOf)
  let dayCounts := tally Dict.empty (logs.map (dayOf zone))
  let hourly := tally (zeros (List.range 24) List.nodup_range) (logs.map (hourOf zone))
  let topUserIds := top (fun u v => decide (count userCounts v ≤ count userCounts u)) 10
    (keys userCounts)
  { total := logs.length
    severityCounts := tally (zeros severityNames (by decide))
      (logs.map fun log => severity ext log.action)
    hourlyDistribution := (List.range 24).map fun h => (h, count hourly h)
    topUsers := topUserIds.map (topUser s userCounts)
    topActions := top (fun a b => decide (b.2 ≤ a.2)) 10
      (tally Dict.empty (logs.map (actionOf ext))).entries
    trend := (List.range 14).map fun i =>
      let day := (clock (i + 1) - 86400 * (13 - i)) / 86400
      (day, count dayCounts day) }

/-- The filters of the query. A log without a user is in every hotel. -/
def inWindow (cutoff : ℤ) (hotelId : Option ℤ) (log : ActivityLog) : Bool :=
  decide (cutoff ≤ log.createdAt) && hotelId.all fun h =>
    log.userId.all fun u => s.users.any fun x => x.id = u && x.hotelId = some h

/-- `order` is how the database answers `ORDER BY created_at ASC`. -/
def activityLogStats (clock : ℕ → ℤ) (order : List ActivityLog → List ActivityLog) (caller : User)
    (days : StatsDays) : Except Error LogStats := do
  requireStaffOrAdmin caller
  let cutoff := clock 0 - 86400 * days.days
  let logs := s.activityLogs.select (inWindow s cutoff (getOptionalHotel caller))
  return logStats ext zone s clock (order logs)

end

/-! ### What the figures are to say -/

/-- Every log counts once by severity, once by hour and, within the fortnight of
the trend, once by day; the leading actions and users are those of most logs. -/
structure LogStats.Sound (ext : Ext) (zone today : ℤ) (logs : List ActivityLog) (st : LogStats) :
    Prop where
  total : st.total = logs.length
  severities : keys st.severityCounts = severityNames
  severity : ∀ level, count st.severityCounts level =
    logs.countP fun log => severity ext log.action = level
  severity_sum : Counter.total st.severityCounts = st.total
  hours : st.hourlyDistribution =
    (List.range 24).map fun h => (h, logs.countP fun log => hourOf zone log = h)
  hours_sum : (st.hourlyDistribution.map Prod.snd).sum = st.total
  users : Leading (logs.filterMap userOf) 10 (st.topUsers.map fun u => (u.userId, u.count))
  actions : Leading (logs.map (actionOf ext)) 10 st.topActions
  trend : st.trend = (List.range 14).map fun i : ℕ =>
    (today - 13 + i, logs.countP fun log => dayOf zone log = today - 13 + i)
  trend_sum : (∀ log ∈ logs, today - 13 ≤ dayOf zone log ∧ dayOf zone log ≤ today) →
    (st.trend.map Prod.snd).sum = st.total

section

variable {ext : Ext} {zone today : ℤ} {s : Store} {logs : List ActivityLog}

theorem count_map {κ : Type} [DecidableEq κ] (f : ActivityLog → κ) (k : κ) :
    (logs.map f).count k = logs.countP fun log => f log = k := by
  rw [List.count, List.countP_map]
  rfl

theorem hourOf_lt (log : ActivityLog) : hourOf zone log < 24 := by
  unfold hourOf
  omega

theorem severity_mem (action : String) : severity ext action ∈ severityNames := by
  unfold severity
  cases hfind : severityLevels.find? fun level => level.2.any (containsText (ext.lower action)) with
  | none => decide
  | some level =>
    have hlevel : level ∈ severityLevels := List.mem_of_find?_eq_some hfind
    have hnames : ∀ level ∈ severityLevels, level.1 ∈ severityNames := by decide
    exact hnames level hlevel

theorem leading_topUsers (s : Store) (us : List ℤ) :
    Leading us 10 (((top (fun u v => decide (count (tally Dict.empty us) v ≤
      count (tally Dict.empty us) u)) 10 (keys (tally Dict.empty us))).map
        (topUser s (tally Dict.empty us))).map fun u => (u.userId, u.count)) := by
  have hsame : ∀ e ∈ (tally Dict.empty us).entries, ∀ e' ∈ (tally Dict.empty us).entries,
      decide (e'.2 ≤ e.2) = decide (count (tally Dict.empty us) e'.1 ≤
        count (tally Dict.empty us) e.1) := by
    intro e he e' he'
    rw [(mem_entries.mp he).2, (mem_entries.mp he').2]
  have hentries : ((top (fun e e' => decide (e'.2 ≤ e.2)) 10 (tally Dict.empty us).entries).map
      Prod.fst).map (fun u => (u, count (tally Dict.empty us) u)) =
      top (fun e e' => decide (e'.2 ≤ e.2)) 10 (tally Dict.empty us).entries := by
    rw [List.map_map]
    refine (List.map_congr_left fun e he => ?_).trans (List.map_id _)
    exact Prod.ext rfl (mem_entries.mp (mem_of_mem_top he)).2.symm
  rw [List.map_map, keys, top, ← List.map_mergeSort hsame, ← List.map_take, ← top]
  have htop := leading_top us 10
  rw [← hentries] at htop
  exact htop

theorem logStats_sound (clock : ℕ → ℤ) (hday : ∀ i, clock i / 86400 = today) :
    (logStats ext zone s clock logs).Sound ext zone today logs := by
  have hdays : ∀ i, (clock (i + 1) - 86400 * (13 - i)) / 86400 = today - 13 + (i : ℤ) := by
    intro i
    have hclock := hday (i + 1)
    omega
  have htrend : (logStats ext zone s clock logs).trend = (List.range 14).map fun i : ℕ =>
      (today - 13 + (i : ℤ), logs.countP fun log => dayOf zone log = today - 13 + i) := by
    refine List.map_congr_left fun i _ => ?_
    simp only [hdays, count_tally, count_map]
    rw [count, Dict.get_eq_none.mpr List.not_mem_nil, Option.getD_none, Nat.zero_add]
  have hhours : (logStats ext zone s clock logs).hourlyDistribution =
      (List.range 24).map fun h => (h, logs.countP fun log => hourOf zone log = h) := by
    refine List.map_congr_left fun h _ => ?_
    rw [count_tally, count_zeros, count_map, Nat.zero_add]
  constructor
  case total => rfl
  case severities =>
    refine keys_tally_of_subset _ _ fun level hlevel => ?_
    obtain ⟨log, -, rfl⟩ := List.mem_map.mp hlevel
    exact severity_mem log.action
  case severity =>
    intro level
    exact (count_tally _ _ level).trans (by rw [count_zeros, count_map, Nat.zero_add])
  case severity_sum =>
    exact (total_tally _ _).trans (by rw [total_zeros, List.length_map, Nat.zero_add]; rfl)
  case hours => exact hhours
  case hours_sum =>
    have hmem : ∀ h ∈ logs.map (hourOf zone), h ∈ List.range 24 := by
      intro h hh
      obtain ⟨log, -, rfl⟩ := List.mem_map.mp hh
      exact List.mem_range.mpr (hourOf_lt log)
    have hsum := sum_count (logs.map (hourOf zone)) List.nodup_range hmem
    rw [List.length_map] at hsum
    rw [hhours, List.map_map]
    refine Eq.trans (congrArg List.sum (List.map_congr_left fun h _ => ?_)) hsum
    exact (count_map (hourOf zone) h).symm
  case users => exact leading_topUsers s (logs.filterMap userOf)
  case actions => exact leading_top (logs.map (actionOf ext)) 10
  case trend => exact htrend
  case trend_sum =>
    intro hwindow
    have hnodup : ((List.range 14).map fun i : ℕ => today - 13 + (i : ℤ)).Nodup := by
      refine List.nodup_range.map fun i j hij => ?_
      have hcast : today - 13 + (i : ℤ) = today - 13 + j := hij
      omega
    have hmem : ∀ d ∈ logs.map (dayOf zone),
        d ∈ (List.range 14).map fun i : ℕ => today - 13 + (i : ℤ) := by
      intro d hd
      obtain ⟨log, hlog, rfl⟩ := List.mem_map.mp hd
      obtain ⟨hlow, hhigh⟩ := hwindow log hlog
      refine List.mem_map.mpr ⟨(dayOf zone log - (today - 13)).toNat, List.mem_range.mpr ?_, ?_⟩
      · omega
      · omega
    have hsum := sum_count (logs.map (dayOf zone)) hnodup hmem
    rw [List.length_map, List.map_map] at hsum
    rw [htrend, List.map_map]
    refine Eq.trans (congrArg List.sum (List.map_congr_left fun i _ => ?_)) hsum
    exact (count_map (dayOf zone) _).symm

/-! ### The list beside the figures -/

/-- The filters of the list that ask for one severity since a time. -/
def severitySince (level text : String) : LogFilters := ⟨some level, none, none, some text, none⟩

theorem activityQuery_severitySince (s : Store) (level : String) {parse : String → Option ℤ}
    {text : String} {cutoff : ℤ} (htext : text ≠ "") (hparse : parse text = some cutoff)
    (hotelId : Option ℤ) :
    ∃ q, activityQuery parse s hotelId (severitySince level text) = .ok q ∧
      ∀ log, q log = inWindow s cutoff hotelId log := by
  have hgiven : given (some text) = some text := Option.filter_some_pos (decide_eq_true htext)
  unfold activityQuery severitySince
  rw [hgiven]
  refine ⟨_, by simp only [timestampText, hparse]; rfl, fun log => ?_⟩
  simp only [given, Option.filter_none, Option.all_none, Option.all_some, Bool.and_true, inWindow]
  exact Bool.and_comm _ _

theorem activityLogStats_eq_ok {clock : ℕ → ℤ} {order : List ActivityLog → List ActivityLog}
    {caller : User} {days : StatsDays} {st : LogStats}
    (h : activityLogStats ext zone s clock order caller days = .ok st) :
    requireStaffOrAdmin caller = .ok () ∧
      st = logStats ext zone s clock (order (s.activityLogs.select
        (inWindow s (clock 0 - 86400 * days.days) (getOptionalHotel caller)))) := by
  unfold activityLogStats at h
  cases hstaff : requireStaffOrAdmin caller with
  | error e =>
    rw [hstaff] at h
    cases h
  | ok _ =>
    rw [hstaff] at h
    exact ⟨rfl, (Except.ok.inj h).symm⟩

/-- The figures of a severity and of all are those of the list: whoever lists the
same window is told the same total, and on a page that holds it all finds as many
logs of a severity as are counted. -/
theorem stats_agree_with_list {clock : ℕ → ℤ} {order : List ActivityLog → List ActivityLog}
    {caller : User} {days : StatsDays} {st : LogStats}
    (h : activityLogStats ext zone s clock order caller days = .ok st)
    (horder : ∀ logs, (order logs).Perm logs) (hday : ∀ i, clock i / 86400 = clock 0 / 86400) :
    (∃ logs, logs.Perm (s.activityLogs.select
        (inWindow s (clock 0 - 86400 * days.days) (getOptionalHotel caller))) ∧
      st.Sound ext zone (clock 0 / 86400) logs) ∧
    ∀ parse level text limit, ∀ order' : List ActivityLog → List ActivityLog,
      (∀ logs, (order' logs).Perm logs) → level ≠ "" → text ≠ "" →
      parse text = some (clock 0 - 86400 * days.days) →
      ∃ page, activityLogs ext parse order' s caller (severitySince level text) limit 0 = .ok page ∧
        page.total = st.total ∧
        (st.total ≤ limit.limit → page.items.length = count st.severityCounts level) := by
  obtain ⟨hstaff, rfl⟩ := activityLogStats_eq_ok h
  have hperm := horder (s.activityLogs.select
    (inWindow s (clock 0 - 86400 * days.days) (getOptionalHotel caller)))
  have hsound : LogStats.Sound ext zone (clock 0 / 86400) (order (s.activityLogs.select
      (inWindow s (clock 0 - 86400 * days.days) (getOptionalHotel caller))))
      (logStats ext zone s clock _) := logStats_sound clock hday
  refine ⟨⟨_, hperm, hsound⟩, ?_⟩
  intro parse level text limit order' horder' hlevel htext hparse
  obtain ⟨q, hq, hsame⟩ := activityQuery_severitySince s level htext hparse
    (getOptionalHotel caller)
  have hselect : s.activityLogs.select q = s.activityLogs.select
      (inWindow s (clock 0 - 86400 * days.days) (getOptionalHotel caller)) :=
    List.filter_congr fun log _ => hsame log
  refine ⟨_, activityLogs_of_query hstaff hq order' 0, ?_, fun hfit => ?_⟩
  · rw [hselect]
    exact hperm.length_eq.symm
  · have hgiven : given (some level) = some level := Option.filter_some_pos (decide_eq_true hlevel)
    have hsev : (severitySince level text).hasSeverity ext =
        fun log => decide (severity ext log.action = level) := by
      funext log
      simp only [LogFilters.hasSeverity, severitySince, hgiven, Option.all_some]
    have hlength : (order' (s.activityLogs.select q)).length ≤ limit.limit := by
      rw [(horder' _).length_eq, hselect, ← hperm.length_eq]
      exact hfit
    have hpage : slice 0 limit.limit (order' (s.activityLogs.select q)) =
        order' (s.activityLogs.select q) := by
      rw [slice, List.drop_zero, List.take_of_length_le hlength]
    rw [logPage, List.length_map, hpage, hsev, ← List.countP_eq_length_filter,
      (horder' _).countP_eq, hselect, ← hperm.countP_eq, hsound.severity]

end

def logAdmin : User := { sampleUser .superAdmin "d@x.org" none with id := 4 }

theorem stats_agree_with_list_sample :
    ∃ st, activityLogStats sampleExt 0 loggedStore (fun _ => 864000) id logAdmin
        ⟨30, by decide, by decide⟩ = .ok st ∧
      ∃ page, activityLogs sampleExt (fun _ => some (864000 - 86400 * 30)) List.reverse loggedStore
          logAdmin (severitySince "low" "1969-12-12") ⟨100, by decide, by decide⟩ 0 = .ok page ∧
        page.total = st.total ∧
        (st.total ≤ 100 → page.items.length = count st.severityCounts "low") := by
  have hstats : activityLogStats sampleExt 0 loggedStore (fun _ => 864000) id logAdmin
      ⟨30, by decide, by decide⟩ = .ok _ := rfl
  have hagree := stats_agree_with_list hstats (fun logs => .refl logs) fun _ => rfl
  exact ⟨_, hstats, hagree.2 (fun _ => some (864000 - 86400 * 30)) "low" "1969-12-12"
    ⟨100, by decide, by decide⟩ List.reverse List.reverse_perm (by decide) (by decide) rfl⟩

end HotelMs
