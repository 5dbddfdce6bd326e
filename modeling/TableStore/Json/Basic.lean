/-!
# JSON trees

A JSON value with its members in order. The type of its texts is a parameter, so that a tree can be
read before its texts are decoded.

* `Json` — the trees over a type of texts.
-/

namespace TableStore

/-- A JSON value whose texts and keys are in `τ`. A number is kept as it is written. -/
inductive Json (τ : Type) where
  | null
  | boolean (b : Bool)
  | number (numeral : String)
  | text (s : τ)
  | array (items : List (Json τ))
  | object (members : List (τ × Json τ))

end TableStore
