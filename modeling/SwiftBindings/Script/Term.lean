/-
**Terms.**

A term is an expression of a module as far as table definitions can be read from it: names,
literals, calls, members, objects and lists have their structure, wrappers that do not change a
value are marked as such, and every other expression is `other`. Each term keeps its source text.
-/

namespace SwiftBindings.Script

mutual

/-- The form of an expression. -/
inductive Form where
  /-- A variable. -/
  | name (name : String)
  /-- A string literal. -/
  | string (value : String)
  /-- A number literal. -/
  | number
  /-- A truth value. -/
  | boolean (value : Bool)
  /-- An expression behind a minus sign. -/
  | minus (operand : Term)
  /-- An expression in parentheses or with an assertion about its type. -/
  | wrapped (inner : Term)
  /-- A member selected by its name. -/
  | member (object : Term) (property : String)
  /-- A call. A spread argument counts as the spread expression. -/
  | call (callee : Term) (arguments : List Term)
  /-- An object literal. -/
  | object (entries : List Entry)
  /-- A list literal without its holes. A spread item counts as the spread expression. -/
  | array (items : List Term)
  /-- Any other expression. -/
  | other

/-- An expression with its source text. -/
structure Term where
  /-- The form of the expression. -/
  form : Form
  /-- The source text. -/
  text : String

/-- An entry of an object literal. -/
inductive Entry where
  /-- A property under a known key. -/
  | property (key : String) (value : Term)
  /-- A property whose key is computed. -/
  | computed (key value : Term)
  /-- The entries of another object. -/
  | spread (operand : Term)
  /-- A method, or a property whose key is no name. -/
  | other

end

/-! ### Equality -/

mutual

/-- The forms are the same. -/
def Form.same : Form → Form → Bool
  | .name name, .name twin => name == twin
  | .string value, .string twin => value == twin
  | .number, .number => true
  | .boolean value, .boolean twin => value == twin
  | .minus operand, .minus twin => operand.same twin
  | .wrapped inner, .wrapped twin => inner.same twin
  | .member object property, .member twin named => object.same twin && property == named
  | .call callee arguments, .call twin twins => callee.same twin && sameTerms arguments twins
  | .object entries, .object twins => sameEntries entries twins
  | .array items, .array twins => sameTerms items twins
  | .other, .other => true
  | _, _ => false

/-- The terms are the same. -/
def Term.same : Term → Term → Bool
  | ⟨form, text⟩, ⟨twin, words⟩ => form.same twin && text == words

/-- The terms are the same, in order. -/
def sameTerms : List Term → List Term → Bool
  | [], [] => true
  | term :: rest, twin :: twins => term.same twin && sameTerms rest twins
  | _, _ => false

/-- The entries are the same. -/
def Entry.same : Entry → Entry → Bool
  | .property key value, .property named twin => key == named && value.same twin
  | .computed key value, .computed named twin => key.same named && value.same twin
  | .spread operand, .spread twin => operand.same twin
  | .other, .other => true
  | _, _ => false

/-- The entries are the same, in order. -/
def sameEntries : List Entry → List Entry → Bool
  | [], [] => true
  | entry :: rest, twin :: twins => entry.same twin && sameEntries rest twins
  | _, _ => false

end

mutual

theorem Form.same_iff : ∀ form twin : Form, form.same twin = true ↔ form = twin
  | .name _, twin | .string _, twin | .number, twin | .boolean _, twin | .other, twin => by
    cases twin <;> simp [Form.same]
  | .minus term, twin | .wrapped term, twin | .member term _, twin => by
    cases twin <;> simp [Form.same, term.same_iff]
  | .call callee arguments, twin => by
    cases twin <;> simp [Form.same, callee.same_iff, sameTerms_iff arguments]
  | .object entries, twin => by cases twin <;> simp [Form.same, sameEntries_iff entries]
  | .array items, twin => by cases twin <;> simp [Form.same, sameTerms_iff items]

theorem Term.same_iff : ∀ term twin : Term, term.same twin = true ↔ term = twin
  | ⟨form, _⟩, ⟨_, _⟩ => by simp [Term.same, form.same_iff]

theorem sameTerms_iff : ∀ terms twins : List Term, sameTerms terms twins = true ↔ terms = twins
  | [], twins => by cases twins <;> simp [sameTerms]
  | term :: rest, twins => by cases twins <;> simp [sameTerms, term.same_iff, sameTerms_iff rest]

theorem Entry.same_iff : ∀ entry twin : Entry, entry.same twin = true ↔ entry = twin
  | .property _ value, twin | .spread value, twin => by
    cases twin <;> simp [Entry.same, value.same_iff]
  | .computed key value, twin => by cases twin <;> simp [Entry.same, key.same_iff, value.same_iff]
  | .other, twin => by cases twin <;> simp [Entry.same]

theorem sameEntries_iff : ∀ entries twins : List Entry,
    sameEntries entries twins = true ↔ entries = twins
  | [], twins => by cases twins <;> simp [sameEntries]
  | entry :: rest, twins => by
    cases twins <;> simp [sameEntries, entry.same_iff, sameEntries_iff rest]

end

instance : DecidableEq Term := fun term twin => decidable_of_decidable_of_iff (term.same_iff twin)

end SwiftBindings.Script
