/-!
# Positions in a source

A position is a line and a column, both counted from one. Columns count characters, and only
a line feed ends a line.
-/

set_option autoImplicit false

namespace Fieldwise

/-- A place in a source. -/
structure Pos where
  line : Nat
  column : Nat
  deriving DecidableEq, Repr, Inhabited

namespace Pos

/-- The place of the first character. -/
def start : Pos := ⟨1, 1⟩

/-- The place after the character `c`. -/
def after (p : Pos) (c : Char) : Pos :=
  if c = '\n' then ⟨p.line + 1, 1⟩ else ⟨p.line, p.column + 1⟩

/-- The place after a run of characters. -/
def afterAll (p : Pos) (cs : List Char) : Pos :=
  cs.foldl after p

/-- Line and column with a colon between. -/
def render (p : Pos) : String :=
  s!"{p.line}:{p.column}"

@[simp] theorem afterAll_nil (p : Pos) : p.afterAll [] = p := rfl

@[simp] theorem afterAll_cons (p : Pos) (c : Char) (cs : List Char) :
    p.afterAll (c :: cs) = (p.after c).afterAll cs := rfl

theorem afterAll_append (p : Pos) (cs ds : List Char) :
    p.afterAll (cs ++ ds) = (p.afterAll cs).afterAll ds :=
  List.foldl_append

end Pos

end Fieldwise
