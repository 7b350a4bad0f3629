import HotelMs.ClientTokens
import HotelMs.GuestExport
import HotelMs.ActivityLogs
import HotelMs.Lib.CsvFiles

/-!
# The activity log as a file

`exportCSV` of `pages/admin/system/ActivityLogs.jsx` joins the fields of a log with
commas. Of eleven fields only the detail is put in quotes.
-/

namespace HotelMs

open Tables Csv Numerals

/-! ### The file -/

/-- `Array.join` writes nothing for a null. -/
def joinedText (text : Option String) : List Char := (text.getD "").toList

def joinedInt (i : Option ℤ) : List Char := i.elim [] intText

def logHeader : List Char :=
  ("id,severity,action,user_id,user_name,user_role,resource,resource_id,detail," ++
    "ip_address,created_at").toList

section

variable (created : ℤ → String)

/-- The values of a log, in the order of the header; `created` is the text of `created_at`. -/
def logFields (l : LogItem) : List (List Char) :=
  [intText l.id, l.severity.toList, l.action.toList, joinedInt l.userId, joinedText l.userName,
    joinedText (l.userRole.map Role.value), joinedText l.resource, joinedInt l.resourceId,
    joinedText l.detail, joinedText l.ipAddress, (created l.createdAt).toList]

def csvRow (l : LogItem) : List Char :=
  [','].intercalate
    [intText l.id, l.severity.toList, l.action.toList, joinedInt l.userId, joinedText l.userName,
      joinedText (l.userRole.map Role.value), joinedText l.resource, joinedInt l.resourceId,
      '"' :: doubled (joinedText l.detail) ++ ['"'], joinedText l.ipAddress,
      (created l.createdAt).toList]

def exportCSV (rows : List LogItem) : List Char :=
  ['\n'].intercalate (logHeader :: rows.map (csvRow created))

/-! ### Its cells -/

def headerCells : List Cell :=
  ["id", "severity", "action", "user_id", "user_name", "user_role", "resource", "resource_id",
    "detail", "ip_address", "created_at"].map fun name : String => .bare name.toList

def logCells (l : LogItem) : List Cell :=
  [.bare (intText l.id), .bare l.severity.toList, .bare l.action.toList,
    .bare (joinedInt l.userId), .bare (joinedText l.userName),
    .bare (joinedText (l.userRole.map Role.value)), .bare (joinedText l.resource),
    .bare (joinedInt l.resourceId), .quoted (joinedText l.detail),
    .bare (joinedText l.ipAddress), .bare (created l.createdAt).toList]

theorem logHeader_eq : logHeader = lineOf headerCells := by
  have hjoined : "id,severity,action,user_id,user_name,user_role,resource,resource_id,detail," ++
      "ip_address,created_at" = ",".intercalate ["id", "severity", "action", "user_id",
        "user_name", "user_role", "resource", "resource_id", "detail", "ip_address",
        "created_at"] := by decide +kernel
  exact (congrArg String.toList hjoined).trans String.toList_intercalate

theorem headerCells_readable : ∀ c ∈ headerCells, c.Readable := by decide +kernel

theorem exportCSV_eq (rows : List LogItem) :
    exportCSV created rows = fileOf (headerCells :: rows.map (logCells created)) := by
  unfold exportCSV fileOf
  rw [List.map_cons, List.map_map, logHeader_eq]
  rfl

/-! ### What can stand without quotes -/

def BareText (text : String) : Prop := ∀ c ∈ text.toList, isBare c = true

instance (text : String) : Decidable (BareText text) := List.decidableBAll _ text.toList

theorem bare_intText {i : ℤ} : ∀ c ∈ intText i, isBare c = true := fun c hc =>
  isBare_iff.mpr (plain_intText c hc)

theorem bare_joinedInt {i : Option ℤ} : ∀ c ∈ joinedInt i, isBare c = true := by
  cases i with
  | none => exact fun c hc => by cases hc
  | some i => exact bare_intText

theorem bare_role (role : Option Role) : BareText ((role.map Role.value).getD "") := by
  cases role with
  | none => decide
  | some role => cases role <;> decide

theorem bare_severity (ext : Ext) (action : String) : BareText (severity ext action) := by
  unfold severity
  cases hfind : severityLevels.find? fun level =>
      level.2.any (containsText (ext.lower action)) with
  | none => exact (by decide : BareText "info")
  | some level =>
    have hlevels : ∀ level ∈ severityLevels, BareText level.1 := by decide
    exact hlevels level (List.mem_of_find?_eq_some hfind)

/-- The texts that come from outside: the action, the name of the user, the
resource, the address and the time. -/
structure LogItem.Exportable (l : LogItem) : Prop where
  action : BareText l.action
  userName : BareText (l.userName.getD "")
  resource : BareText (l.resource.getD "")
  ipAddress : BareText (l.ipAddress.getD "")
  createdAt : BareText (created l.createdAt)

theorem readable_iff (ext : Ext) (s : Store) (log : ActivityLog) :
    (∀ c ∈ logCells created (logItem ext s log), c.Readable) ↔
      (logItem ext s log).Exportable created := by
  have hseverity : BareText (logItem ext s log).severity := bare_severity ext log.action
  have hrole : BareText (((logItem ext s log).userRole.map Role.value).getD "") := bare_role _
  simp only [logCells, List.forall_mem_cons, List.not_mem_nil, false_implies, implies_true,
    and_true]
  constructor
  · intro h
    obtain ⟨_, _, haction, _, hname, _, hresource, _, _, haddress, hcreated⟩ := h
    exact ⟨haction, hname, hresource, haddress, hcreated⟩
  · intro h
    exact ⟨bare_intText, hseverity, h.action, bare_joinedInt, h.userName, hrole, h.resource,
      bare_joinedInt, trivial, h.ipAddress, h.createdAt⟩

end

/-- A reader of CSV finds the logs again, each with all its fields, exactly if none of
the texts without quotes has a comma, a quote or an end of line. What a detail says
does not matter. -/
theorem exportCSV_read_iff (ext : Ext) (created : ℤ → String) (s : Store)
    (logs : List ActivityLog) :
    readCsv (exportCSV created (logs.map (logItem ext s))) =
        some (texts headerCells :: logs.map fun log => logFields created (logItem ext s log)) ↔
      ∀ log ∈ logs, (logItem ext s log).Exportable created := by
  have hlong : ∀ line ∈ headerCells :: (logs.map (logItem ext s)).map (logCells created),
      2 ≤ line.length := by
    intro line hline
    rcases List.mem_cons.mp hline with rfl | hline
    · decide
    · obtain ⟨l, _, rfl⟩ := List.mem_map.mp hline
      exact (by decide : 2 ≤ 11)
  have htexts : ((logs.map (logItem ext s)).map (logCells created)).map texts =
      logs.map fun log => logFields created (logItem ext s log) := by
    rw [List.map_map, List.map_map]
    rfl
  have hfile := readCsv_fileOf_iff (List.cons_ne_nil _ _) hlong
  rw [List.map_cons, htexts] at hfile
  rw [exportCSV_eq]
  refine Iff.trans hfile ?_
  rw [List.forall_mem_cons]
  constructor
  · intro h log hlog
    have hline := List.mem_map_of_mem (f := logCells created)
      (List.mem_map_of_mem (f := logItem ext s) hlog)
    exact (readable_iff created ext s log).mp (h.2 _ hline)
  · intro h
    refine ⟨headerCells_readable, fun line hline => ?_⟩
    obtain ⟨l, hl, rfl⟩ := List.mem_map.mp hline
    obtain ⟨log, hlog, rfl⟩ := List.mem_map.mp hl
    exact (readable_iff created ext s log).mpr (h log hlog)

end HotelMs
