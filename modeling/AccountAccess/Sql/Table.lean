import AccountAccess.Account.Row
import AccountAccess.Text.Bytes

/-!
# Answers of a database server

A query is answered with columns, which have names and types, and rows of cells.
A cell is read as the type that is asked for: it must not be null, and its column
must be of exactly that type.  Where null is allowed, a null cell is read whatever
the type of its column.
-/

namespace AccountAccess
namespace Sql

/-- The types of columns. -/
inductive ColumnType where
  | int8
  | int4
  | text
  | bool
  | timestamptz
  deriving DecidableEq, Repr

/-- A value in a row. -/
inductive Cell where
  | null
  | integer (value : Int64)
  /-- A text of any bytes. -/
  | text (bytes : List UInt8)
  | bool (value : Bool)
  /-- A point in time, in microseconds since the start of 1970. -/
  | time (microseconds : Int)
  deriving DecidableEq, Repr

/-- The answer to a query. -/
structure Table where
  columns : List (String × ColumnType) := []
  rows : List (List Cell) := []

/-- A row with its columns. -/
abbrev Row := List ((String × ColumnType) × Cell)

/-- How a type is read from a cell of a column. -/
abbrev Decoder (α : Type) := ColumnType → Cell → Option α

namespace Decoder

/-- A signed 64-bit integer. -/
def int64 : Decoder Int64
  | .int8, .integer value => some value
  | _, _ => none

/-- A text. -/
def text : Decoder String
  | .text, .text bytes => Text.ofBytes? bytes
  | _, _ => none

/-- A truth value. -/
def bool : Decoder Bool
  | .bool, .bool value => some value
  | _, _ => none

/-- A point in time. -/
def time : Decoder Timestamp
  | .timestamptz, .time microseconds => some (.ofMicroseconds microseconds)
  | _, _ => none

/-- A value that may be null. -/
def nullable (decode : Decoder α) : Decoder (Option α)
  | _, .null => some none
  | type, cell => (decode type cell).map some

end Decoder

/-- The rows with their columns. -/
def Table.toRows (table : Table) : List Row :=
  table.rows.map fun cells => table.columns.zip cells

namespace Row

/-- The value in the column of a name; of several columns of one name the last
counts. -/
def get? (row : Row) (name : String) (decode : Decoder α) : Option α :=
  (row.reverse.find? (·.1.1 == name)).bind fun ((_, type), cell) => decode type cell

/-- The value in the first column. -/
def first? (row : Row) (decode : Decoder α) : Option α :=
  row.head?.bind fun ((_, type), cell) => decode type cell

/-- The account row. -/
def account? (row : Row) : Option AccountRow := do
  return {
    id := ← row.get? "id" .int64
    username := ← row.get? "username" .text
    phone := ← row.get? "phone" .text
    email := ← row.get? "email" (.nullable .text)
    passwordHash := ← row.get? "password" .text
    isStaff := ← row.get? "is_staff" .bool
    isSuperAdmin := ← row.get? "is_super_admin" .bool
    status := ← row.get? "status" .text
    roleId := ← row.get? "role_id" .int64
    lastLoginAt := ← row.get? "last_login_at" (.nullable .time)
    remark := ← row.get? "remark" .text
    createdAt := ← row.get? "created_at" .time
    deletedAt := ← row.get? "deleted_at" .int64 }

end Row
end Sql
end AccountAccess
