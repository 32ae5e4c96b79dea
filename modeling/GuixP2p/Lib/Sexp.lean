import Mathlib.Data.List.Basic

/-!
# GuixP2p.Lib.Sexp

**S-expressions and the two ways to look into them** that libgcrypt offers: the first
sublist headed by a token, searched at any depth in document order, and the `n`-th
atom of a list. A search in a whole expression and a search in one of its sublists
need not find the same thing.
-/

namespace GuixP2p.Lib

inductive Sexp
  | atom (data : List UInt8)
  | list (items : List Sexp)

namespace Sexp

/-- The list starts with this atom. -/
def headIs (token : List UInt8) : List Sexp → Bool
  | .atom data :: _ => decide (data = token)
  | _ => false

mutual

/-- The first sublist, in document order and at any depth, whose head is the token. -/
def findToken (token : List UInt8) : Sexp → Option (List Sexp)
  | .atom _ => none
  | .list items => if headIs token items then some items else findTokenIn token items

/-- The same among the members of a list. -/
def findTokenIn (token : List UInt8) : List Sexp → Option (List Sexp)
  | [] => none
  | s :: rest =>
    match findToken token s with
    | some found => some found
    | none => findTokenIn token rest

end

/-- The `n`-th member of a list, if it is an atom. -/
def nthData (items : List Sexp) (n : Nat) : Option (List UInt8) :=
  match items[n]? with
  | some (.atom data) => some data
  | _ => none

end Sexp

end GuixP2p.Lib
