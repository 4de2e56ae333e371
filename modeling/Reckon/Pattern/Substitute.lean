import Reckon.Pattern.Match

/-!
# Substituting bindings

Substitution replaces each bound variable of a sequence by its binding and leaves unbound
ones in place. A list capture whose tail became a list and whose head became a value turns
into that list with the head in front; a map capture whose rest became a map and whose key
and value became values turns into the rest merged with that one entry. Otherwise a capture
stays, with its parts substituted. Lists and maps that hold placeholders are substituted item
by item, and a map is rebuilt so that its keys stay distinct.
-/

namespace Reckon

namespace Bindings

mutual
/-- The token with the bindings substituted into it. -/
def substitute (b : Bindings) : Token → Token
  | .var name cat =>
    match b.lookup name with
    | some t => t
    | none => .var name cat
  | .listCap h t =>
    let h' := substitute b h
    let t' := substitute b t
    match t' with
    | .list xs => if h'.isValue then .list (h' :: xs) else .listCap h' t'
    | _ => .listCap h' t'
  | .mapCap k v r =>
    let k' := substitute b k
    let v' := substitute b v
    let r' := substitute b r
    match r' with
    | .map es => if k'.isValue && v'.isValue then .map (Entries.merge es [(k', v')])
        else .mapCap k' v' r'
    | _ => .mapCap k' v' r'
  | .list xs =>
    if (Token.list xs).hasPlaceholder then .list (substituteItems b xs) else .list xs
  | .map es =>
    if (Token.map es).hasPlaceholder then .map (Entries.build (substituteEntries b es))
    else .map es
  | t => t
/-- The items with the bindings substituted into them. -/
def substituteItems (b : Bindings) : List Token → List Token
  | [] => []
  | x :: xs => substitute b x :: substituteItems b xs
/-- The entries with the bindings substituted into their keys and values. -/
def substituteEntries (b : Bindings) : List (Token × Token) → List (Token × Token)
  | [] => []
  | (k, v) :: es => (substitute b k, substitute b v) :: substituteEntries b es
end

/-- The sequence with the bindings substituted into each token. -/
def instantiate (b : Bindings) (ts : List Token) : List Token :=
  ts.map (substitute b)

end Bindings

end Reckon

namespace Reckon.Bindings

/-- The bindings ordered by name. -/
def sorted (b : Bindings) : Bindings :=
  b.mergeSort fun x y => decide (x.1 ≤ y.1)

end Reckon.Bindings
