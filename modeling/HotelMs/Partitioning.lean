import HotelMs.Lib.SqlTypes
import Mathlib.Data.List.Find
import Mathlib.Data.Multiset.Defs

/-!
# Partitioning the bookings table

Revision 0005 of `migrations/versions/`, a list of statements that run in one
transaction, over what the catalog and the tables hold. `INSERT … SELECT *` pairs
columns by position and casts where an assignment cast exists.
-/

namespace HotelMs

open SqlTypes

/-! ### Tables -/

inductive SqlType
  | integer
  | date
  | numeric (precision scale : ℕ)
  | varchar
  | text
  | timestamptz
  deriving DecidableEq

inductive SqlValue
  | null
  | integer (n : ℤ)
  | date (day : ℤ)
  | numeric (q : ℚ)
  | text (t : String)
  | timestamptz (t : ℤ)
  deriving DecidableEq

structure Column where
  name : String
  type : SqlType
  notNull : Bool
  deriving DecidableEq

inductive Constraint
  | primaryKey (columns : List String)
  | check (name column : String) (values : List String)
  | foreignKey (name column target : String)
  deriving DecidableEq

def Constraint.name? : Constraint → Option String
  | .primaryKey _ => none
  | .check name _ _ => some name
  | .foreignKey name _ _ => some name

def Constraint.refersTo (table : String) : Constraint → Bool
  | .foreignKey _ _ target => target = table
  | _ => false

inductive RelKind
  | plain
  | partitioned
  | partition (parent : String) (bounds : Option (ℤ × ℤ))
  deriving DecidableEq

abbrev Row := List SqlValue

/-- Columns and values are in their physical order. -/
structure PgTable where
  name : String
  kind : RelKind
  columns : List Column
  constraints : List Constraint
  rows : List Row

def fieldOf (columns : List Column) (row : Row) (name : String) : SqlValue :=
  ((columns.zip row).find? fun x => x.1.name = name).elim .null Prod.snd

def PgTable.field (t : PgTable) (row : Row) (name : String) : SqlValue := fieldOf t.columns row name

structure Catalog where
  tables : List PgTable
  indexes : List (String × String)
  sequenceOwner : Option String

def Catalog.table (c : Catalog) (name : String) : Option PgTable :=
  c.tables.find? fun t => t.name = name

inductive PgError
  | undefinedTable (name : String)
  | duplicateTable (name : String)
  | duplicateObject (name : String)
  | tooManyExpressions
  | datatypeMismatch (column : String)
  | outOfRange (column : String)
  | notNullViolation (column : String)
  | constraintViolation
  | invalidForeignKey
  | dependentObjects
  deriving DecidableEq

/-! ### Statements -/

inductive Statement
  | dropConstraint (table name : String)
  | dropIndex (name : String)
  | sequenceOwnedBy (owner : Option String)
  | renameTable (old new : String)
  | createTable (t : PgTable)
  | createPartition (name parent : String) (bounds : Option (ℤ × ℤ))
  | addForeignKey (table name column target : String)
  | insertSelect (target source : String)
  | createIndex (name table : String)
  | dropTable (name : String)

/-- What casts take from the session: its time zone and its output formats. -/
structure PgSession where
  midnight : ℤ → ℤ
  dateOf : ℤ → ℤ
  toText : SqlValue → String

/-- The casts that PostgreSQL applies by itself in an assignment. Any type goes
to a string type, and no string type to another. -/
def assignable : SqlType → SqlType → Bool
  | _, .varchar => true
  | _, .text => true
  | .integer, .integer => true
  | .integer, .numeric _ _ => true
  | .numeric _ _, .integer => true
  | .numeric _ _, .numeric _ _ => true
  | .date, .date => true
  | .date, .timestamptz => true
  | .timestamptz, .timestamptz => true
  | .timestamptz, .date => true
  | _, _ => false

/-- `none` is a value out of range, and of a value that `assignable` excludes. -/
def PgSession.cast (session : PgSession) : SqlType → SqlValue → Option SqlValue
  | _, .null => some .null
  | .varchar, .text t => some (.text t)
  | .text, .text t => some (.text t)
  | .varchar, v => some (.text (session.toText v))
  | .text, v => some (.text (session.toText v))
  | .integer, .integer n => some (.integer n)
  | .integer, .numeric q =>
    let n := roundHalfAway q
    if -2 ^ 31 ≤ n ∧ n < 2 ^ 31 then some (.integer n) else none
  | .numeric p s, .integer n => (numeric p s n).map .numeric
  | .numeric p s, .numeric q => (numeric p s q).map .numeric
  | .date, .date d => some (.date d)
  | .date, .timestamptz t => some (.date (session.dateOf t))
  | .timestamptz, .timestamptz t => some (.timestamptz t)
  | .timestamptz, .date d => some (.timestamptz (session.midnight d))
  | _, _ => none

def raise (p : Prop) [Decidable p] (e : PgError) : Except PgError Unit :=
  if p then .error e else .ok ()

def Catalog.require (c : Catalog) (name : String) : Except PgError PgTable :=
  match c.table name with
  | none => .error (.undefinedTable name)
  | some t => .ok t

def Catalog.alter (c : Catalog) (name : String) (f : PgTable → PgTable) : Catalog :=
  { c with
    tables := c.tables.map fun t => if t.name = name then { f t with name := t.name } else t }

def Constraint.retarget (old new : String) : Constraint → Constraint
  | .foreignKey name column target => .foreignKey name column (if target = old then new else target)
  | k => k

def PgTable.renamed (old new : String) (t : PgTable) : PgTable :=
  { t with
    name := if t.name = old then new else t.name
    kind := match t.kind with
      | .partition parent bounds => .partition (if parent = old then new else parent) bounds
      | kind => kind
    constraints := t.constraints.map (Constraint.retarget old new) }

/-- Rows of these columns meet a constraint. -/
def Catalog.meets (c : Catalog) (columns : List Column) (rows : List Row) : Constraint → Bool
  | .primaryKey key =>
    (rows.map fun row => key.map (fieldOf columns row)).Nodup &&
      rows.all fun row => key.all fun k => fieldOf columns row k ≠ .null
  | .check _ column values => rows.all fun row =>
    fieldOf columns row column = .null || fieldOf columns row column ∈ values.map .text
  | .foreignKey _ column target => rows.all fun row =>
    fieldOf columns row column = .null || (c.table target).any fun t =>
      t.rows.any fun r => t.field r "id" = fieldOf columns row column

/-- A foreign key needs a table whose `id` is unique by itself. -/
def Catalog.referable (c : Catalog) : Constraint → Bool
  | .foreignKey _ _ target => (c.table target).any fun t => .primaryKey ["id"] ∈ t.constraints
  | _ => true

def RelKind.isPartitionOf (parent : String) : RelKind → Bool
  | .partition p _ => p = parent
  | _ => false

def RelKind.takes (parent : String) (day : SqlValue) : RelKind → Bool
  | .partition p none => p = parent
  | .partition p (some (first, last)) => p = parent && match day with
    | .date d => first ≤ d && d < last
    | _ => false
  | _ => false

/-- A partitioned table takes a row when some partition of it does. -/
def Catalog.routes (c : Catalog) (t : PgTable) (row : Row) : Bool :=
  t.kind ≠ .partitioned || c.tables.any fun p => p.kind.takes t.name (t.field row "check_in")

/-- The row as the target's columns take it, by position. -/
def PgSession.castRow (session : PgSession) : List Column → Row → Except PgError Row
  | column :: columns, v :: row => do
    let v' ← (session.cast column.type v).elim (.error (.outOfRange column.name)) .ok
    raise (column.notNull = true ∧ v' = .null) (.notNullViolation column.name)
    return v' :: (← session.castRow columns row)
  | _, _ => .ok []

def castRows (session : PgSession) (columns : List Column) (rows : List Row) :
    Except PgError (List Row) :=
  rows.mapM (session.castRow columns)

/-- The types are checked before any row is read. -/
def checkTypes : List Column → List Column → Except PgError Unit
  | [], [] => .ok ()
  | [], _ :: _ => .error .tooManyExpressions
  | _ :: _, [] => .ok ()
  | column :: columns, source :: sources => do
    raise (assignable source.type column.type = false) (.datatypeMismatch column.name)
    checkTypes columns sources

def Catalog.exec (session : PgSession) (c : Catalog) : Statement → Except PgError Catalog
  | .dropConstraint table name => do
    let _ ← c.require table
    return c.alter table fun t =>
      { t with constraints := t.constraints.filter fun k => k.name? ≠ some name }
  | .dropIndex name => .ok { c with indexes := c.indexes.filter fun i => i.1 ≠ name }
  | .sequenceOwnedBy owner => .ok { c with sequenceOwner := owner }
  | .renameTable old new => do
    let _ ← c.require old
    raise ((c.table new).isSome = true) (.duplicateTable new)
    return {
      tables := c.tables.map (PgTable.renamed old new)
      indexes := c.indexes.map fun i => (i.1, if i.2 = old then new else i.2)
      sequenceOwner := c.sequenceOwner.map fun o => if o = old then new else o }
  | .createTable t => do
    raise ((c.table t.name).isSome = true) (.duplicateTable t.name)
    raise (t.constraints.any fun k => !c.referable k) .invalidForeignKey
    return { c with tables := c.tables ++ [t] }
  | .createPartition name parent bounds => do
    let t ← c.require parent
    raise ((c.table name).isSome = true) (.duplicateTable name)
    return { c with tables := c.tables ++ [⟨name, .partition parent bounds, t.columns, [], []⟩] }
  | .addForeignKey table name column target => do
    let t ← c.require table
    raise (c.referable (.foreignKey name column target) = false) .invalidForeignKey
    raise (some name ∈ t.constraints.map Constraint.name?) (.duplicateObject name)
    raise (c.meets t.columns t.rows (.foreignKey name column target) = false) .constraintViolation
    return c.alter table fun t =>
      { t with constraints := t.constraints ++ [.foreignKey name column target] }
  | .insertSelect target source => do
    let t ← c.require target
    let from_ ← c.require source
    checkTypes t.columns from_.columns
    let rows ← castRows session t.columns from_.rows
    raise (rows.any fun row => !c.routes t row) .constraintViolation
    raise (t.constraints.any fun k => !c.meets t.columns (t.rows ++ rows) k) .constraintViolation
    return c.alter target fun t => { t with rows := t.rows ++ rows }
  | .createIndex name table => do
    let _ ← c.require table
    raise (name ∈ c.indexes.map Prod.fst) (.duplicateObject name)
    return { c with indexes := c.indexes ++ [(name, table)] }
  | .dropTable name => do
    let _ ← c.require name
    raise (c.tables.any (fun t => t.name ≠ name && t.constraints.any (Constraint.refersTo name)))
      .dependentObjects
    return {
      tables := c.tables.filter fun t => t.name ≠ name && !t.kind.isPartitionOf name
      indexes := c.indexes.filter fun i => i.2 ≠ name
      sequenceOwner := c.sequenceOwner }

def Catalog.execAll (session : PgSession) (c : Catalog) : List Statement → Except PgError Catalog
  | [] => .ok c
  | statement :: rest => do
    let c' ← c.exec session statement
    c'.execAll session rest

/-! ### Revision 0005 -/

/-- `date(year, 1, 1).toordinal()`. -/
def newYear (year : ℕ) : ℤ :=
  365 * (year - 1) + (year - 1) / 4 - (year - 1) / 100 + (year - 1) / 400 + 1

def bookingColumns : List Column :=
  [⟨"id", .integer, true⟩, ⟨"hotel_id", .integer, true⟩, ⟨"user_id", .integer, true⟩,
    ⟨"room_id", .integer, true⟩, ⟨"check_in", .date, true⟩, ⟨"check_out", .date, true⟩,
    ⟨"adults", .integer, true⟩, ⟨"children", .integer, true⟩,
    ⟨"special_requests", .text, false⟩, ⟨"total_price", .numeric 10 2, true⟩,
    ⟨"status", .varchar, true⟩, ⟨"created_at", .timestamptz, true⟩]

def statusCheck : Constraint :=
  .check "ck_bookings_status" "status" ["pending", "confirmed", "cancelled", "completed"]

def partitionedBookings : PgTable :=
  ⟨"bookings", .partitioned, bookingColumns, [.primaryKey ["id", "check_in"], statusCheck], []⟩

def createPartitions : List Statement :=
  ([2024, 2025, 2026, 2027, 2028].map fun year =>
    .createPartition ("bookings_" ++ toString year) "bookings"
      (some (newYear year, newYear (year + 1)))) ++
  [.createPartition "bookings_default" "bookings" none]

def upgradeStatements : List Statement :=
  [.dropConstraint "payments" "payments_booking_id_fkey",
    .dropIndex "ix_bookings_hotel_id",
    .dropIndex "ix_bookings_check_in_check_out",
    .sequenceOwnedBy none,
    .renameTable "bookings" "bookings_old",
    .createTable partitionedBookings] ++
  createPartitions ++
  [.addForeignKey "bookings" "bookings_hotel_id_fkey" "hotel_id" "hotels",
    .addForeignKey "bookings" "bookings_user_id_fkey" "user_id" "users",
    .addForeignKey "bookings" "bookings_room_id_fkey" "room_id" "rooms",
    .insertSelect "bookings" "bookings_old",
    .sequenceOwnedBy (some "bookings"),
    .createIndex "ix_bookings_hotel_id" "bookings",
    .createIndex "ix_bookings_check_in_check_out" "bookings",
    .dropTable "bookings_old"]

/-- Skipped when the table is already partitioned. -/
def upgrade (session : PgSession) (c : Catalog) : Except PgError Catalog :=
  if (c.table "bookings").any (fun t => t.kind = .partitioned) then .ok c
  else c.execAll session upgradeStatements

def flatBookings : PgTable :=
  ⟨"bookings", .plain, bookingColumns, [.primaryKey ["id"], statusCheck,
    .foreignKey "bookings_hotel_id_fkey" "hotel_id" "hotels",
    .foreignKey "bookings_user_id_fkey" "user_id" "users",
    .foreignKey "bookings_room_id_fkey" "room_id" "rooms"], []⟩

def downgradeStatements : List Statement :=
  [.sequenceOwnedBy none,
    .dropIndex "ix_bookings_hotel_id",
    .dropIndex "ix_bookings_check_in_check_out",
    .renameTable "bookings" "bookings_partitioned_backup",
    .createTable flatBookings,
    .insertSelect "bookings" "bookings_partitioned_backup",
    .sequenceOwnedBy (some "bookings"),
    .createIndex "ix_bookings_hotel_id" "bookings",
    .createIndex "ix_bookings_check_in_check_out" "bookings",
    .addForeignKey "payments" "payments_booking_id_fkey" "booking_id" "bookings",
    .dropTable "bookings_partitioned_backup"]

def downgrade (session : PgSession) (c : Catalog) : Except PgError Catalog :=
  c.execAll session downgradeStatements

/-- The columns as they stand before: revision 0002 appends three. -/
def migratedColumns : List Column :=
  [⟨"id", .integer, true⟩, ⟨"hotel_id", .integer, true⟩, ⟨"user_id", .integer, true⟩,
    ⟨"room_id", .integer, true⟩, ⟨"check_in", .date, true⟩, ⟨"check_out", .date, true⟩,
    ⟨"total_price", .numeric 10 2, true⟩, ⟨"status", .varchar, true⟩,
    ⟨"created_at", .timestamptz, true⟩] ++
  [⟨"adults", .integer, true⟩, ⟨"children", .integer, true⟩, ⟨"special_requests", .text, false⟩]

/-! ### What a statement leaves alone -/

def RelKind.isPartition : RelKind → Bool
  | .partition _ _ => true
  | _ => false

def Catalog.contents (c : Catalog) (name : String) : Option (Bool × List Column × List Row) :=
  (c.table name).map fun t => (t.kind.isPartition, t.columns, t.rows)

/-- The tables that a statement creates, renames, fills or drops. -/
def Statement.writes : Statement → List String
  | .renameTable old new => [old, new]
  | .createTable t => [t.name]
  | .createPartition name _ _ => [name]
  | .insertSelect target _ => [target]
  | .dropTable name => [name]
  | _ => []

section

variable {session : PgSession} {c c' d : Catalog} {name : String}

@[simp] theorem execBind_eq_ok {α β : Type} {x : Except PgError α} {f : α → Except PgError β}
    {b : β} : x >>= f = .ok b ↔ ∃ a, x = .ok a ∧ f a = .ok b := by
  cases x <;> simp [bind, Except.bind]

@[simp] theorem execPure_eq_ok {α : Type} {a b : α} :
    (pure a : Except PgError α) = .ok b ↔ a = b := by
  simp [pure, Except.pure]

@[simp] theorem raise_eq_ok {p : Prop} [Decidable p] {e : PgError} {u : Unit} :
    raise p e = .ok u ↔ ¬p := by
  unfold raise
  split <;> simp [*]

@[simp] theorem require_eq_ok {t : PgTable} : c.require name = .ok t ↔ c.table name = some t := by
  unfold Catalog.require
  cases c.table name <;> simp

theorem table_map {f : PgTable → PgTable} (hf : ∀ t, (f t).name = name ↔ t.name = name)
    (indexes : List (String × String)) (owner : Option String) :
    Catalog.table ⟨c.tables.map f, indexes, owner⟩ name = (c.table name).map f := by
  have hp : ((fun t : PgTable => decide (t.name = name)) ∘ f) =
      fun t => decide (t.name = name) := by
    funext t
    simp only [Function.comp_apply, hf t]
  unfold Catalog.table
  rw [List.find?_map, hp]

theorem contents_map {f : PgTable → PgTable} (hf : ∀ t, (f t).name = name ↔ t.name = name)
    (hsame : ∀ t, t.name = name → (f t).kind.isPartition = t.kind.isPartition ∧
      (f t).columns = t.columns ∧ (f t).rows = t.rows)
    (indexes : List (String × String)) (owner : Option String) :
    Catalog.contents ⟨c.tables.map f, indexes, owner⟩ name = c.contents name := by
  unfold Catalog.contents
  rw [table_map hf]
  cases h : c.table name with
  | none => rfl
  | some t =>
    have hname : t.name = name := by simpa using List.find?_some h
    obtain ⟨hkind, hcolumns, hrows⟩ := hsame t hname
    simp only [Option.map_some, hkind, hcolumns, hrows]

theorem table_append (t : PgTable) (ht : t.name ≠ name) (indexes : List (String × String))
    (owner : Option String) :
    Catalog.table ⟨c.tables ++ [t], indexes, owner⟩ name = c.table name := by
  unfold Catalog.table
  rw [List.find?_append]
  simp [ht]

theorem table_append_self (t : PgTable) (ht : c.table t.name = none)
    (indexes : List (String × String)) (owner : Option String) :
    Catalog.table ⟨c.tables ++ [t], indexes, owner⟩ t.name = some t := by
  unfold Catalog.table at ht ⊢
  rw [List.find?_append, ht]
  simp

theorem table_filter (q : PgTable → Bool) (indexes : List (String × String))
    (owner : Option String) (hq : ∀ t, c.table name = some t → q t = true) :
    Catalog.table ⟨c.tables.filter q, indexes, owner⟩ name = c.table name := by
  unfold Catalog.table at hq ⊢
  rw [List.find?_filter]
  cases h : c.tables.find? fun t => t.name = name with
  | none =>
    rw [List.find?_eq_none] at h ⊢
    intro t ht hp
    exact h t ht (of_decide_eq_true hp).2
  | some t =>
    have hqt := hq t h
    rw [List.find?_eq_some_iff_append] at h ⊢
    obtain ⟨hp, before, after, hl, hbefore⟩ := h
    refine ⟨?_, before, after, hl, fun x hx => ?_⟩
    · exact decide_eq_true ⟨hqt, hp⟩
    · have hx' := hbefore x hx
      rw [Bool.not_eq_true'] at hx' ⊢
      exact decide_eq_false fun h => by rw [h.2] at hx'; cases hx'

theorem name_alter {f : PgTable → PgTable} {other : String} (t : PgTable) :
    (if t.name = other then { f t with name := t.name } else t).name = t.name := by
  split <;> rfl

theorem table_alter (f : PgTable → PgTable) (other : String) :
    (c.alter other f).table name =
      (c.table name).map fun t => if t.name = other then { f t with name := t.name } else t :=
  table_map (fun t => by rw [name_alter]) _ _

theorem alter_contents {f : PgTable → PgTable} {other : String}
    (hsame : ∀ t, t.name = other → t.name = name → (f t).kind.isPartition = t.kind.isPartition ∧
      (f t).columns = t.columns ∧ (f t).rows = t.rows) :
    (c.alter other f).contents name = c.contents name := by
  refine contents_map (fun t => by rw [name_alter]) (fun t ht => ?_) _ _
  by_cases hother : t.name = other
  · simp only [if_pos hother]
    exact hsame t hother ht
  · simp only [if_neg hother, and_self]

theorem renamed_contents {old new : String} (hold : name ≠ old) (hnew : name ≠ new)
    (indexes : List (String × String)) (owner : Option String) :
    Catalog.contents ⟨c.tables.map (PgTable.renamed old new), indexes, owner⟩ name =
      c.contents name := by
  refine contents_map (f := PgTable.renamed old new) (fun t => ?_) (fun t _ => ⟨?_, rfl, rfl⟩) _ _
  · unfold PgTable.renamed
    by_cases h : t.name = old
    · simp only [if_pos h]
      exact ⟨fun h' => absurd h'.symm hnew, fun h' => absurd (h'.symm.trans h) hold⟩
    · simp only [if_neg h]
  · unfold PgTable.renamed
    cases t.kind <;> rfl

theorem dropTable_contents {dropped : String}
    (h : c.exec session (.dropTable dropped) = .ok c') (hne : name ≠ dropped)
    (hpart : ∀ x, c.contents name = some x → x.1 = false) :
    c'.contents name = c.contents name := by
  simp only [Catalog.exec, execBind_eq_ok, execPure_eq_ok] at h
  obtain ⟨_, _, _, _, rfl⟩ := h
  unfold Catalog.contents
  rw [table_filter _ _ _ fun t ht => ?_]
  have hname : t.name = name := by simpa using List.find?_some ht
  have hkind : t.kind.isPartition = false := hpart _ (by rw [Catalog.contents, ht]; rfl)
  rw [Bool.and_eq_true, decide_eq_true_eq, hname]
  refine ⟨hne, ?_⟩
  cases hk : t.kind with
  | plain => rfl
  | partitioned => rfl
  | partition parent bounds =>
    rw [hk] at hkind
    cases hkind

/-- A table that the statement does not write keeps its columns and rows, unless
it is dropped with the table it is a partition of. -/
theorem exec_contents {st : Statement} (h : c.exec session st = .ok c')
    (hn : name ∉ st.writes) (hpart : ∀ x, c.contents name = some x → x.1 = false) :
    c'.contents name = c.contents name := by
  cases st with
  | dropConstraint table constraint =>
    simp only [Catalog.exec, execBind_eq_ok, execPure_eq_ok] at h
    obtain ⟨_, _, rfl⟩ := h
    exact alter_contents fun _ _ _ => ⟨rfl, rfl, rfl⟩
  | dropIndex index =>
    cases h
    rfl
  | sequenceOwnedBy owner =>
    cases h
    rfl
  | renameTable old new =>
    simp only [Catalog.exec, execBind_eq_ok, execPure_eq_ok] at h
    obtain ⟨_, _, _, _, rfl⟩ := h
    simp only [Statement.writes, List.mem_cons, List.not_mem_nil, or_false, not_or] at hn
    exact renamed_contents hn.1 hn.2 _ _
  | createTable t =>
    simp only [Catalog.exec, execBind_eq_ok, execPure_eq_ok] at h
    obtain ⟨_, _, _, _, rfl⟩ := h
    have ht : t.name ≠ name := fun h => hn (List.mem_singleton.mpr h.symm)
    unfold Catalog.contents
    rw [table_append t ht]
  | createPartition partition parent bounds =>
    simp only [Catalog.exec, execBind_eq_ok, execPure_eq_ok] at h
    obtain ⟨_, _, _, _, rfl⟩ := h
    have ht : partition ≠ name := fun h => hn (List.mem_singleton.mpr h.symm)
    unfold Catalog.contents
    rw [table_append _ ht]
  | addForeignKey table constraint column target =>
    simp only [Catalog.exec, execBind_eq_ok, execPure_eq_ok] at h
    obtain ⟨_, _, _, _, _, _, _, _, rfl⟩ := h
    exact alter_contents fun _ _ _ => ⟨rfl, rfl, rfl⟩
  | insertSelect target source =>
    simp only [Catalog.exec, execBind_eq_ok, execPure_eq_ok] at h
    obtain ⟨_, _, _, _, _, _, _, _, _, _, _, _, rfl⟩ := h
    have ht : name ≠ target := fun h => hn (List.mem_singleton.mpr h)
    exact alter_contents fun t h h' => absurd (h'.symm.trans h) ht
  | createIndex index table =>
    simp only [Catalog.exec, execBind_eq_ok, execPure_eq_ok] at h
    obtain ⟨_, _, _, _, rfl⟩ := h
    rfl
  | dropTable dropped =>
    exact dropTable_contents h (fun h => hn (List.mem_singleton.mpr h)) hpart

theorem execAll_cons_eq_ok {st : Statement} {l : List Statement} :
    c.execAll session (st :: l) = .ok c' ↔
      ∃ d, c.exec session st = .ok d ∧ d.execAll session l = .ok c' := by
  rw [Catalog.execAll, execBind_eq_ok]

theorem execAll_append_eq_ok {l l' : List Statement} :
    c.execAll session (l ++ l') = .ok c' ↔
      ∃ d, c.execAll session l = .ok d ∧ d.execAll session l' = .ok c' := by
  induction l generalizing c with
  | nil => simp [Catalog.execAll]
  | cons st l ih =>
    simp only [List.cons_append, execAll_cons_eq_ok, ih]
    constructor
    · intro h
      obtain ⟨d, hst, e, hl, hl'⟩ := h
      exact ⟨e, ⟨d, hst, hl⟩, hl'⟩
    · intro h
      obtain ⟨e, ⟨d, hst, hl⟩, hl'⟩ := h
      exact ⟨d, hst, e, hl, hl'⟩

theorem execAll_contents {l : List Statement} (h : c.execAll session l = .ok c')
    (hn : ∀ st ∈ l, name ∉ st.writes) {x : List Column × List Row}
    (hc : c.contents name = some (false, x)) : c'.contents name = some (false, x) := by
  induction l generalizing c with
  | nil =>
    cases h
    exact hc
  | cons st l ih =>
    obtain ⟨d, hst, hl⟩ := execAll_cons_eq_ok.mp h
    refine ih hl (fun st' hst' => hn st' (List.mem_cons_of_mem _ hst')) ?_
    rw [exec_contents hst (hn st List.mem_cons_self) fun y hy => ?_, hc]
    rw [hc] at hy
    cases hy
    rfl

theorem exec_renameTable {old new : String} (h : c.exec session (.renameTable old new) = .ok c')
    (hne : old ≠ new) : c'.contents new = c.contents old ∧ c'.table old = none := by
  simp only [Catalog.exec, execBind_eq_ok, execPure_eq_ok, require_eq_ok, raise_eq_ok] at h
  obtain ⟨t, ht, _, hnew, rfl⟩ := h
  rw [Bool.not_eq_true, Option.isSome_eq_false_iff, Option.isNone_iff_eq_none] at hnew
  have hfree : ∀ x ∈ c.tables, x.name ≠ new := by
    intro x hx
    exact of_decide_eq_false (by simpa using List.find?_eq_none.mp hnew x hx)
  have hname : ∀ x ∈ c.tables, (PgTable.renamed old new x).name = new ↔ x.name = old := by
    intro x hx
    unfold PgTable.renamed
    by_cases hx' : x.name = old
    · simp only [hx', if_true]
    · simp only [hx', if_false, iff_false]
      exact hfree x hx
  have hp : ∀ x ∈ c.tables,
      ((fun x : PgTable => decide (x.name = new)) ∘ PgTable.renamed old new) x =
        (fun x : PgTable => decide (x.name = old)) x := by
    intro x hx
    simp only [Function.comp_apply, hname x hx]
  constructor
  · unfold Catalog.contents Catalog.table
    rw [List.find?_map, List.find?_congr hp]
    cases hold : c.tables.find? fun x => x.name = old with
    | none => rfl
    | some x =>
      simp only [Option.map_some, PgTable.renamed]
      cases x.kind <;> rfl
  · unfold Catalog.table
    rw [List.find?_eq_none]
    intro x hx
    obtain ⟨y, hy, rfl⟩ := List.mem_map.mp hx
    rw [decide_eq_true_eq]
    unfold PgTable.renamed
    by_cases hy' : y.name = old
    · simp only [hy', if_true]
      exact fun h => hne h.symm
    · simp only [hy', if_false, not_false_iff]

theorem exec_createTable {t : PgTable} (h : c.exec session (.createTable t) = .ok c') :
    c'.contents t.name = some (t.kind.isPartition, t.columns, t.rows) := by
  simp only [Catalog.exec, execBind_eq_ok, execPure_eq_ok, raise_eq_ok] at h
  obtain ⟨_, hfree, _, _, rfl⟩ := h
  rw [Bool.not_eq_true, Option.isSome_eq_false_iff, Option.isNone_iff_eq_none] at hfree
  unfold Catalog.contents
  rw [table_append_self t hfree]
  rfl

theorem exec_insertSelect {target source : String} {columns columns' : List Column}
    {rows rows' : List Row} (h : c.exec session (.insertSelect target source) = .ok c')
    (ht : c.contents target = some (false, columns, rows))
    (hs : c.contents source = some (false, columns', rows')) :
    ∃ new, checkTypes columns columns' = .ok () ∧ castRows session columns rows' = .ok new ∧
      c'.contents target = some (false, columns, rows ++ new) := by
  unfold Catalog.contents at ht hs
  obtain ⟨t, htable, ht⟩ := Option.map_eq_some_iff.mp ht
  obtain ⟨t', htable', hs⟩ := Option.map_eq_some_iff.mp hs
  obtain ⟨hkind, rfl, rfl⟩ := Prod.mk.injEq .. ▸ ht
  obtain ⟨_, rfl, rfl⟩ := Prod.mk.injEq .. ▸ hs
  simp only [Catalog.exec, execBind_eq_ok, execPure_eq_ok, require_eq_ok] at h
  obtain ⟨u, hu, u', hu', _, hcheck, new, hcast, _, _, _, _, rfl⟩ := h
  obtain rfl := Option.some.inj (htable.symm.trans hu)
  obtain rfl := Option.some.inj (htable'.symm.trans hu')
  refine ⟨new, hcheck, hcast, ?_⟩
  have hname : t.name = target := by simpa using List.find?_some htable
  unfold Catalog.contents
  rw [table_alter, htable]
  simp only [Option.map_some, hname, if_true, hkind]

/-- Replacing a table by one of other columns: the new table has the old rows,
cast by position. -/
theorem execAll_replace {t : PgTable} {backup : String} {before between after : List Statement}
    (h : c.execAll session (before ++ .renameTable t.name backup :: .createTable t :: between ++
      .insertSelect t.name backup :: after) = .ok c')
    (hne : t.name ≠ backup) (ht : t.kind.isPartition = false ∧ t.rows = [])
    (hbefore : ∀ st ∈ before, t.name ∉ st.writes)
    (hbetween : ∀ st ∈ between, t.name ∉ st.writes ∧ backup ∉ st.writes)
    (hafter : ∀ st ∈ after, t.name ∉ st.writes) {columns : List Column} {rows : List Row}
    (hc : c.contents t.name = some (false, columns, rows)) :
    ∃ new, checkTypes t.columns columns = .ok () ∧ castRows session t.columns rows = .ok new ∧
      c'.contents t.name = some (false, t.columns, new) := by
  rw [List.append_assoc] at h
  obtain ⟨c₁, h₁, h⟩ := execAll_append_eq_ok.mp h
  rw [List.cons_append, List.cons_append] at h
  obtain ⟨c₂, h₂, h⟩ := execAll_cons_eq_ok.mp h
  obtain ⟨c₃, h₃, h⟩ := execAll_cons_eq_ok.mp h
  obtain ⟨c₄, h₄, h⟩ := execAll_append_eq_ok.mp h
  obtain ⟨c₅, h₅, h₆⟩ := execAll_cons_eq_ok.mp h
  have hold₂ : c₂.contents backup = some (false, columns, rows) := by
    rw [(exec_renameTable h₂ hne).1]
    exact execAll_contents h₁ hbefore hc
  have hold₃ : c₃.contents backup = some (false, columns, rows) := by
    rw [exec_contents h₃ (fun hmem => hne (List.mem_singleton.mp hmem).symm) fun x hx => ?_, hold₂]
    rw [hold₂] at hx
    cases hx
    rfl
  have hnew₃ : c₃.contents t.name = some (false, t.columns, []) := by
    rw [exec_createTable h₃, ht.1, ht.2]
  have hold₄ := execAll_contents h₄ (fun st hst => (hbetween st hst).2) hold₃
  have hnew₄ := execAll_contents h₄ (fun st hst => (hbetween st hst).1) hnew₃
  obtain ⟨new, hcheck, hcast, hnew₅⟩ := exec_insertSelect h₅ hnew₄ hold₄
  exact ⟨new, hcheck, hcast, execAll_contents h₆ hafter hnew₅⟩

/-! ### The two directions -/

theorem upgradeStatements_shape : upgradeStatements =
    upgradeStatements.take 4 ++ .renameTable partitionedBookings.name "bookings_old" ::
      .createTable partitionedBookings :: (upgradeStatements.drop 6).take 9 ++
      .insertSelect partitionedBookings.name "bookings_old" :: upgradeStatements.drop 16 := rfl

theorem downgradeStatements_shape : downgradeStatements =
    downgradeStatements.take 3 ++ .renameTable flatBookings.name "bookings_partitioned_backup" ::
      .createTable flatBookings :: [] ++
      .insertSelect flatBookings.name "bookings_partitioned_backup" ::
      downgradeStatements.drop 6 := rfl

theorem upgrade_contents (h : upgrade session c = .ok c') {t : PgTable}
    (ht : c.table "bookings" = some t) (hplain : t.kind = .plain) :
    ∃ new, checkTypes bookingColumns t.columns = .ok () ∧
      castRows session bookingColumns t.rows = .ok new ∧
      c'.contents "bookings" = some (false, bookingColumns, new) := by
  have hkind : ¬(c.table "bookings").any (fun t => t.kind = .partitioned) = true := by
    rw [ht, Option.any_some, hplain]
    decide
  unfold upgrade at h
  rw [if_neg hkind, upgradeStatements_shape] at h
  have hc : c.contents partitionedBookings.name = some (false, t.columns, t.rows) := by
    unfold Catalog.contents
    rw [show partitionedBookings.name = "bookings" from rfl, ht, Option.map_some, hplain]
    rfl
  exact execAll_replace h (by decide) ⟨rfl, rfl⟩ (by decide) (by decide) (by decide) hc

theorem downgrade_contents (h : downgrade session c = .ok c') {rows : List Row}
    (hc : c.contents "bookings" = some (false, bookingColumns, rows)) :
    ∃ new, castRows session bookingColumns rows = .ok new ∧
      c'.contents "bookings" = some (false, bookingColumns, new) := by
  unfold downgrade at h
  rw [downgradeStatements_shape] at h
  obtain ⟨new, _, hcast, hnew⟩ := execAll_replace h (by decide) ⟨rfl, rfl⟩ (by decide) (by decide)
    (by decide) hc
  exact ⟨new, hcast, hnew⟩

/-- The eighth column of the copy, `children`, is to take `status`. -/
theorem checkTypes_migrated :
    checkTypes bookingColumns migratedColumns = .error (.datatypeMismatch "children") := by
  decide

/-- The rows by column name, whatever their order. -/
def named (x : Bool × List Column × List Row) : Multiset (String → SqlValue) :=
  (x.2.2.map fun row => fieldOf x.2.1 row : List (String → SqlValue))

/-- The revision succeeds and keeps the rows, and its downgrade restores them. -/
def PreservesBookings (session : PgSession) (c : Catalog) : Prop :=
  ∃ c₁, upgrade session c = .ok c₁ ∧
    (c₁.contents "bookings").map named = (c.contents "bookings").map named ∧
    ∃ c₂, downgrade session c₁ = .ok c₂ ∧
      (c₂.contents "bookings").map named = (c.contents "bookings").map named

/-- On the columns that the earlier revisions leave, the revision never runs
through, whatever the rows. -/
theorem migrated_not_preserved (session : PgSession) {t : PgTable}
    (ht : c.table "bookings" = some t) (hplain : t.kind = .plain)
    (hcolumns : t.columns = migratedColumns) :
    (∀ c', upgrade session c ≠ .ok c') ∧ ¬PreservesBookings session c := by
  have hfails : ∀ c', upgrade session c ≠ .ok c' := by
    intro c' h
    obtain ⟨_, hcheck, _⟩ := upgrade_contents h ht hplain
    rw [hcolumns, checkTypes_migrated] at hcheck
    cases hcheck
  refine ⟨hfails, fun h => ?_⟩
  obtain ⟨c₁, hup, _⟩ := h
  exact hfails c₁ hup

/-- A value that the column can have stored. -/
def Column.holds (column : Column) (v : SqlValue) : Prop :=
  match column.type, v with
  | _, .null => column.notNull = false
  | .integer, .integer _ => True
  | .date, .date _ => True
  | .numeric p s, .numeric q => numeric p s q = some q
  | .varchar, .text _ => True
  | .text, .text _ => True
  | .timestamptz, .timestamptz _ => True
  | _, _ => False

theorem cast_holds (session : PgSession) {column : Column} {v : SqlValue} (h : column.holds v) :
    session.cast column.type v = some v ∧ (column.notNull = true → v ≠ .null) := by
  obtain ⟨colName, type, notNull⟩ := column
  cases v with
  | null =>
    simp only [Column.holds] at h
    refine ⟨rfl, fun hn => ?_⟩
    rw [h] at hn
    cases hn
  | integer n => cases type <;> simp_all [Column.holds, PgSession.cast]
  | date day => cases type <;> simp_all [Column.holds, PgSession.cast]
  | numeric q => cases type <;> simp_all [Column.holds, PgSession.cast]
  | text value => cases type <;> simp_all [Column.holds, PgSession.cast]
  | timestamptz at_ => cases type <;> simp_all [Column.holds, PgSession.cast]

theorem castRow_holds {columns : List Column} {row : Row}
    (h : List.Forall₂ Column.holds columns row) : session.castRow columns row = .ok row := by
  induction h with
  | nil => rfl
  | cons hv _ ih =>
    obtain ⟨hcast, hnull⟩ := cast_holds session hv
    unfold PgSession.castRow
    simp only [hcast, Option.elim_some, execBind_eq_ok, raise_eq_ok, execPure_eq_ok, ih]
    exact ⟨_, rfl, (), fun h => hnull h.1 h.2, _, rfl, rfl⟩

theorem castRows_holds {columns : List Column} {rows : List Row}
    (h : ∀ row ∈ rows, List.Forall₂ Column.holds columns row) :
    castRows session columns rows = .ok rows := by
  unfold castRows
  induction rows with
  | nil => rfl
  | cons row rows ih =>
    rw [List.mapM_cons, castRow_holds (h row List.mem_cons_self),
      ih fun r hr => h r (List.mem_cons_of_mem _ hr)]
    rfl

/-- On a table that was created in one go, with the columns in the new order, both
directions keep the rows. -/
theorem upgrade_downgrade_keep_rows {c₁ c₂ : Catalog} {t : PgTable}
    (hup : upgrade session c = .ok c₁) (hdown : downgrade session c₁ = .ok c₂)
    (ht : c.table "bookings" = some t) (hplain : t.kind = .plain)
    (hrows : ∀ row ∈ t.rows, List.Forall₂ Column.holds bookingColumns row) :
    c₁.contents "bookings" = some (false, bookingColumns, t.rows) ∧
      c₂.contents "bookings" = some (false, bookingColumns, t.rows) := by
  obtain ⟨new, _, hcast, h₁⟩ := upgrade_contents hup ht hplain
  rw [castRows_holds hrows] at hcast
  cases hcast
  obtain ⟨new, hcast, h₂⟩ := downgrade_contents hdown h₁
  rw [castRows_holds hrows] at hcast
  cases hcast
  exact ⟨h₁, h₂⟩

end

/-! ### Samples -/

def sampleSession : PgSession := ⟨fun day => 86400 * day, fun t => t / 86400, fun _ => ""⟩

def keyTable (name : String) : PgTable :=
  ⟨name, .plain, [⟨"id", .integer, true⟩], [.primaryKey ["id"]], [[.integer 1]]⟩

def samplePayments : PgTable :=
  ⟨"payments", .plain, [⟨"id", .integer, true⟩, ⟨"booking_id", .integer, true⟩],
    [.primaryKey ["id"], .foreignKey "payments_booking_id_fkey" "booking_id" "bookings"], []⟩

def sampleBookings (columns : List Column) (rows : List Row) : PgTable :=
  { flatBookings with columns, rows }

def sampleCatalog (bookings : PgTable) : Catalog :=
  ⟨[keyTable "hotels", keyTable "users", keyTable "rooms", bookings, samplePayments],
    [("ix_bookings_hotel_id", "bookings"), ("ix_bookings_check_in_check_out", "bookings"),
      ("ix_bookings_adults", "bookings")], some "bookings"⟩

def migratedRow : Row :=
  [.integer 1, .integer 1, .integer 1, .integer 1, .date 739626, .date 739628, .numeric 200,
    .text "pending", .timestamptz 0, .integer 1, .integer 0, .null]

def declaredRow : Row :=
  [.integer 1, .integer 1, .integer 1, .integer 1, .date 739626, .date 739628, .integer 1,
    .integer 0, .null, .numeric 200, .text "pending", .timestamptz 0]

def migratedCatalog : Catalog := sampleCatalog (sampleBookings migratedColumns [migratedRow])

def declaredCatalog : Catalog := sampleCatalog (sampleBookings bookingColumns [declaredRow])

example : ((upgrade sampleSession declaredCatalog).bind (downgrade sampleSession)).toOption.map
    (fun c => c.contents "bookings") = some (declaredCatalog.contents "bookings") := by
  decide +kernel

theorem one_migrated_row_fails :
    (upgrade sampleSession migratedCatalog).toOption.isNone = true ∧
      ¬PreservesBookings sampleSession migratedCatalog := by
  have hnone : (upgrade sampleSession migratedCatalog).toOption.isNone = true := by decide +kernel
  refine ⟨hnone, fun h => ?_⟩
  obtain ⟨c₁, hup, _⟩ := h
  rw [hup] at hnone
  cases hnone

theorem migrated_not_preserved_row :
    migratedCatalog.table "bookings" = some (sampleBookings migratedColumns [migratedRow]) ∧
      ¬PreservesBookings sampleSession migratedCatalog := by
  have htable : migratedCatalog.table "bookings" =
      some (sampleBookings migratedColumns [migratedRow]) := rfl
  exact ⟨htable, (migrated_not_preserved sampleSession htable rfl rfl).2⟩

end HotelMs
