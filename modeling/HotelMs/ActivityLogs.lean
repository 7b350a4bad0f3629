import HotelMs.Api
import HotelMs.Lib.Paging

/-!
# Activity logs (`api/v1/admin/reports.py`)

`activity_logs` counts and slices in SQL; the severity of a log is computed, and
asked for, after that.
-/

namespace HotelMs

open Tables Paging

/-! ### The endpoint -/

def severityLevels : List (String × List String) := [
  ("critical", ["ban", "delete", "drop", "force", "wipe", "revoke"]),
  ("high", ["error", "fail", "unauthoriz", "block", "cancel", "suspend"]),
  ("medium", ["update", "change", "modify", "reset", "disable", "edit"]),
  ("low", ["create", "add", "login", "register", "checkin", "checkout", "payment", "export"])]

def containsText (text part : String) : Bool := decide (part.toList <:+: text.toList)

def severity (ext : Ext) (action : String) : String :=
  ((severityLevels.find? fun level => level.2.any (containsText (ext.lower action))).map
    Prod.fst).getD "info"

/-- `Query(100, ge=1, le=500)`. -/
structure LogLimit where
  limit : ℕ
  ge : 1 ≤ limit
  le : limit ≤ 500

structure LogFilters where
  severityFilter : Option String
  actionFilter : Option String
  roleFilter : Option String
  dateFrom : Option String
  dateTo : Option String

structure LogItem where
  id : ℤ
  action : String
  severity : String
  resource : Option String
  resourceId : Option ℤ
  detail : Option String
  userId : Option ℤ
  userName : Option String
  userRole : Option Role
  ipAddress : Option String
  createdAt : ℤ
  deriving DecidableEq

structure LogPage where
  items : List LogItem
  total : ℕ
  offset : ℕ
  limit : ℕ
  deriving DecidableEq

section

variable (ext : Ext)

def LogFilters.hasSeverity (f : LogFilters) (log : ActivityLog) : Bool :=
  (given f.severityFilter).all fun level => severity ext log.action = level

def logItem (s : Store) (log : ActivityLog) : LogItem :=
  let user := log.userId.bind s.users.get
  {
    id := log.id
    action := log.action
    severity := severity ext log.action
    resource := log.resource
    resourceId := log.resourceId
    detail := log.detail
    userId := log.userId
    userName := user.map fun u => orElse u.fullName u.email
    userRole := user.map User.role
    ipAddress := log.ipAddress
    createdAt := log.createdAt }

/-- The text as a time stamp, by the database that compares with it. -/
def timestampText (parse : String → Option ℤ) : Option String → Except Error (Option ℤ)
  | none => .ok none
  | some text => do return some (← found (parse text) .data)

variable (parse : String → Option ℤ)

/-- The filters of the query. A log without a user is in every hotel and has no role. -/
def activityQuery (s : Store) (hotelId : Option ℤ) (f : LogFilters) :
    Except Error (ActivityLog → Bool) := do
  let dateFrom ← timestampText parse (given f.dateFrom)
  let dateTo ← timestampText parse ((given f.dateTo).map (· ++ "T23:59:59"))
  let role ← parseRole (given f.roleFilter)
  return fun log =>
    hotelId.all (fun h => log.userId.all fun u =>
      s.users.any fun x => x.id = u && x.hotelId = some h) &&
    (given f.actionFilter).all (fun action => log.action = action) &&
    dateFrom.all (fun t => t ≤ log.createdAt) &&
    dateTo.all (fun t => log.createdAt ≤ t) &&
    role.all fun r => log.userId.any fun u => s.users.any fun x => x.id = u && x.role = r

/-- The severity is looked at last, on the rows of the page. -/
def logPage (s : Store) (f : LogFilters) (limit : LogLimit) (offset total : ℕ)
    (rows : List ActivityLog) : LogPage where
  items := ((slice offset limit.limit rows).filter (f.hasSeverity ext)).map (logItem ext s)
  total := total
  offset := offset
  limit := limit.limit

/-- `order` is how the database answers `ORDER BY created_at DESC` this time. -/
def activityLogs (order : List ActivityLog → List ActivityLog) (s : Store) (caller : User)
    (f : LogFilters) (limit : LogLimit) (offset : ℕ) : Except Error LogPage := do
  requireStaffOrAdmin caller
  let q ← activityQuery parse s (getOptionalHotel caller) f
  let logs := s.activityLogs.select q
  return logPage ext s f limit offset logs.length (order logs)

end

/-! ### The paging law -/

/-- The pages of a walk hold the items once each; all but the last with items are
full, and every page tells how many items there are. -/
structure Listed (items : List LogItem) (limit : ℕ) (pages : List LogPage) : Prop where
  complete : (pages.flatMap LogPage.items).Perm items
  full : pages.Pairwise fun page later => later.items ≠ [] → page.items.length = limit
  total : ∀ page ∈ pages, page.total = items.length

section

variable (ext : Ext) (parse : String → Option ℤ) (s : Store) (caller : User) (f : LogFilters)
  (limit : LogLimit)

/-- A walk lists the logs that satisfy all the filters. -/
def LogsPaged (orders : ℕ → List ActivityLog → List ActivityLog) : Prop :=
  ∃ q pages, activityQuery parse s (getOptionalHotel caller) f = .ok q ∧
    Walk (fun k => activityLogs ext parse (orders k) s caller f limit (k * limit.limit))
      LogPage.total limit.limit 0 pages ∧
    Listed ((s.activityLogs.select fun log => q log && f.hasSeverity ext log).map (logItem ext s))
      limit.limit pages

variable {ext parse s caller f limit}

theorem select_and_hasSeverity (q : ActivityLog → Bool) :
    s.activityLogs.select (fun log => q log && f.hasSeverity ext log) =
      (s.activityLogs.select q).filter (f.hasSeverity ext) := by
  unfold Table.select
  rw [List.filter_filter]
  exact List.filter_congr fun log _ => Bool.and_comm _ _

theorem activityLogs_eq_ok {order : List ActivityLog → List ActivityLog} {offset : ℕ}
    {page : LogPage} (h : activityLogs ext parse order s caller f limit offset = .ok page)
    {q : ActivityLog → Bool} (hq : activityQuery parse s (getOptionalHotel caller) f = .ok q) :
    page.total = (s.activityLogs.select q).length := by
  unfold activityLogs at h
  cases hstaff : requireStaffOrAdmin caller with
  | error e =>
    rw [hstaff] at h
    cases h
  | ok _ =>
    rw [hstaff, hq] at h
    cases h
    rfl

theorem activityLogs_of_query (hstaff : requireStaffOrAdmin caller = .ok ())
    {q : ActivityLog → Bool} (hq : activityQuery parse s (getOptionalHotel caller) f = .ok q)
    (order : List ActivityLog → List ActivityLog) (offset : ℕ) :
    activityLogs ext parse order s caller f limit offset =
      .ok (logPage ext s f limit offset (s.activityLogs.select q).length
        (order (s.activityLogs.select q))) := by
  unfold activityLogs
  rw [hstaff, hq]
  rfl

/-- The total counts the logs of every severity. -/
theorem hasSeverity_of_paged {orders : ℕ → List ActivityLog → List ActivityLog}
    (h : LogsPaged ext parse s caller f limit orders) :
    ∃ q, activityQuery parse s (getOptionalHotel caller) f = .ok q ∧
      ∀ log ∈ s.activityLogs.rows, q log = true → f.hasSeverity ext log = true := by
  obtain ⟨q, pages, hq, hwalk, hlisted⟩ := h
  refine ⟨q, hq, fun log hlog hlogq => ?_⟩
  obtain ⟨page, hpage, hmem⟩ := hwalk.first
  have htotal := hlisted.total page hmem
  rw [activityLogs_eq_ok hpage hq, List.length_map, select_and_hasSeverity] at htotal
  have hall := List.length_filter_eq_length_iff.mp htotal.symm
  exact hall log ((Table.mem_select _).mpr ⟨hlog, hlogq⟩)

variable {q : ActivityLog → Bool} {l : List ActivityLog}

theorem listed_slices (hl : l.Perm (s.activityLogs.select q))
    (hsev : ∀ log ∈ s.activityLogs.select q, f.hasSeverity ext log = true) {count : ℕ}
    (hcount : l.length ≤ count * limit.limit) {page : ℕ → LogPage}
    (hitems : ∀ k, (page k).items = (slice (k * limit.limit) limit.limit l).map (logItem ext s))
    (htotal : ∀ k, (page k).total = l.length) :
    Listed ((s.activityLogs.select fun log => q log && f.hasSeverity ext log).map (logItem ext s))
      limit.limit ((List.range count).map page) := by
  have hsame : s.activityLogs.select (fun log => q log && f.hasSeverity ext log) =
      s.activityLogs.select q := by
    rw [select_and_hasSeverity]
    exact List.filter_eq_self.mpr hsev
  rw [hsame]
  constructor
  · have hpages : ((List.range count).map page).flatMap LogPage.items =
        ((List.range count).flatMap fun k => slice (k * limit.limit) limit.limit l).map
          (logItem ext s) := by
      rw [List.flatMap_map, List.map_flatMap]
      exact List.flatMap_congr fun k _ => hitems k
    rw [hpages, pages_eq_take, List.take_of_length_le hcount]
    exact hl.map _
  · rw [List.pairwise_map]
    refine List.pairwise_lt_range.imp fun {i j} hij hne => ?_
    rw [hitems, List.length_map]
    rw [hitems] at hne
    refine length_slice_of_later hij fun hnil => hne ?_
    rw [hnil, List.map_nil]
  · intro p hp
    obtain ⟨k, _, rfl⟩ := List.mem_map.mp hp
    rw [htotal, List.length_map, hl.length_eq]

def Store.DistinctLogTimes (s : Store) : Prop :=
  (s.activityLogs.rows.map ActivityLog.createdAt).Nodup

theorem logs_paged_iff {orders : ℕ → List ActivityLog → List ActivityLog}
    (hdistinct : s.DistinctLogTimes) (hstaff : requireStaffOrAdmin caller = .ok ())
    (horders : ∀ k, Arranges ActivityLog.createdAt (orders k)) :
    LogsPaged ext parse s caller f limit orders ↔
      ∃ q, activityQuery parse s (getOptionalHotel caller) f = .ok q ∧
        ∀ log ∈ s.activityLogs.rows, q log = true → f.hasSeverity ext log = true := by
  constructor
  · exact hasSeverity_of_paged
  · intro h
    obtain ⟨q, hq, hall⟩ := h
    have hkeys : ((s.activityLogs.select q).map ActivityLog.createdAt).Nodup :=
      hdistinct.sublist (List.filter_sublist.map _)
    have hfirst := horders 0 (s.activityLogs.select q)
    have horder : ∀ k, orders k (s.activityLogs.select q) = orders 0 (s.activityLogs.select q) :=
      fun k => (horders k _).unique hkeys hfirst
    have hsev : ∀ log ∈ s.activityLogs.select q, f.hasSeverity ext log = true := by
      intro log hlog
      obtain ⟨hrow, hlogq⟩ := (Table.mem_select _).mp hlog
      exact hall log hrow hlogq
    have hfetch : ∀ k, activityLogs ext parse (orders k) s caller f limit (k * limit.limit) =
        .ok (logPage ext s f limit (k * limit.limit) (s.activityLogs.select q).length
          (orders k (s.activityLogs.select q))) :=
      fun k => activityLogs_of_query hstaff hq (orders k) (k * limit.limit)
    have htotal : ∀ k, (logPage ext s f limit (k * limit.limit) (s.activityLogs.select q).length
        (orders k (s.activityLogs.select q))).total = (s.activityLogs.select q).length :=
      fun k => rfl
    obtain ⟨count, hcount, hwalk⟩ := walk_exists limit.ge hfetch htotal
    refine ⟨q, _, hq, hwalk, listed_slices hfirst.1 hsev ?_ (fun k => ?_) (fun k => ?_)⟩
    · rw [hfirst.1.length_eq]
      exact hcount
    · have hslice : ∀ log ∈ slice (k * limit.limit) limit.limit
          (orders 0 (s.activityLogs.select q)), f.hasSeverity ext log = true := by
        intro log hlog
        exact hsev log (hfirst.1.mem_iff.mp (List.mem_of_mem_drop (List.mem_of_mem_take hlog)))
      show List.map _ (List.filter _ (slice _ _ (orders k _))) = _
      rw [horder k, List.filter_eq_self.mpr hslice]
    · exact hfirst.1.length_eq.symm

end

/-! ### A page of another severity -/

def loggedAction (id : ℤ) (action : String) : ActivityLog :=
  ⟨id, some 1, action, none, none, none, none, 100 * id⟩

def loggedStore : Store :=
  { sampleStore with
    activityLogs := ((Table.empty.insert (loggedAction 1 "login")).insert
      (loggedAction 2 "ban_user")).insert (loggedAction 3 "login") }

def noFilters : LogFilters := ⟨none, none, none, none, none⟩

def onePerPage : LogLimit := ⟨1, by decide, by decide⟩

theorem logs_paged_all : LogsPaged sampleExt (fun _ => none) loggedStore
    { sampleUser .superAdmin "d@x.org" none with id := 4 } noFilters onePerPage
    fun _ => sortDescending ActivityLog.createdAt := by
  have hdistinct : loggedStore.DistinctLogTimes := by
    unfold Store.DistinctLogTimes
    decide +kernel
  refine (logs_paged_iff hdistinct rfl fun _ => arranges_sortDescending _).mpr ?_
  exact ⟨_, rfl, fun _ _ _ => rfl⟩

/-- Asked for the critical logs, one a page: the first page is empty and tells of three. -/
theorem critical_logs_miscounted : ¬LogsPaged sampleExt (fun _ => none) loggedStore
    { sampleUser .superAdmin "d@x.org" none with id := 4 }
    { noFilters with severityFilter := some "critical" } onePerPage
    fun _ => sortDescending ActivityLog.createdAt := by
  intro h
  obtain ⟨q, hq, hall⟩ := hasSeverity_of_paged h
  have hpass : ∀ log ∈ loggedStore.activityLogs.rows, q log = true := by
    obtain rfl := Except.ok.inj hq
    decide +kernel
  have hlogin : loggedAction 1 "login" ∈ loggedStore.activityLogs.rows := by decide +kernel
  have hlow := hall _ hlogin (hpass _ hlogin)
  revert hlow
  decide +kernel

end HotelMs
