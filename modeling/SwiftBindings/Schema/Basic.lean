/-
**Schemas.**

A schema lists the tables of one source in declaration order, each with the fields of its documents
and its indexes.
-/

import SwiftBindings.Validator.Basic

namespace SwiftBindings

/-- The kind of an index. -/
inductive IndexKind where
  /-- An index over fields in order. -/
  | index
  /-- A full-text index. -/
  | search
  /-- An index over vectors. -/
  | vector
  deriving DecidableEq, Repr

/-- The kind as data has it. -/
def IndexKind.tag : IndexKind → String
  | .index => "index"
  | .search => "search"
  | .vector => "vector"

/-- An index of a table. -/
structure Index where
  /-- Kind of the index. -/
  kind : IndexKind
  /-- Name of the index. -/
  name : String
  /-- Indexed fields; for full-text and vector indexes the searched field comes first. -/
  fields : List String
  deriving DecidableEq, Repr

/-- A table. -/
structure Table where
  /-- Name of the table. -/
  name : String
  /-- Fields of its documents, without those that every document has. -/
  fields : List Field
  /-- Indexes in declaration order. -/
  indexes : List Index

/-- The tables of one source. -/
structure Schema where
  /-- Path of the source. -/
  source : String
  /-- Tables in declaration order. -/
  tables : List Table

end SwiftBindings
