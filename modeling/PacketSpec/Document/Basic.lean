/-!
A packet specification: descriptor ranges, templates, the tables of structures and those of
enumerations. All cells are raw text.
-/
namespace PacketSpec

structure RangeRow where
  codes : String
  anchor : String
  deriving DecidableEq, Repr

/-- A table whose layout several descriptors share. -/
structure TemplateRow where
  id : String
  anchor : String
  deriving DecidableEq, Repr

structure FieldRow where
  type : String
  name : String
  value : String := ""
  deriving DecidableEq, Repr

structure MemberRow where
  name : String
  value : String
  deriving DecidableEq, Repr

/-- Tables by key, in ascending order of keys. -/
abbrev Tables (ρ : Type) := List (String × List ρ)

namespace Tables

variable {ρ : Type}

/-- Adds a table; a table of the same key gives way to it. -/
def insert (key : String) (rows : List ρ) : Tables ρ → Tables ρ
  | [] => [(key, rows)]
  | (other, theirs) :: rest =>
    if key < other then (key, rows) :: (other, theirs) :: rest
    else if key = other then (key, rows) :: rest
    else (other, theirs) :: insert key rows rest

def ofList (tables : List (String × List ρ)) : Tables ρ :=
  tables.foldl (fun ts (key, rows) => insert key rows ts) []

end Tables

structure Document where
  ranges : List RangeRow := []
  templates : List TemplateRow := []
  structs : Tables FieldRow := []
  enums : Tables MemberRow := []
  deriving DecidableEq, Repr

namespace Document

/-- A missing table has no rows. -/
def fieldRows (document : Document) (key : String) : List FieldRow :=
  (document.structs.lookup key).getD []

def fieldRow? (document : Document) (key : String) (index : Nat) : Option FieldRow :=
  (document.fieldRows key)[index]?

def enumRows? (document : Document) (key : String) : Option (List MemberRow) :=
  document.enums.lookup key

end Document

end PacketSpec
