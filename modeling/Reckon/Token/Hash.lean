import Reckon.Token.Basic

/-!
# Hashing tokens

A map indexes its entries by the hash of their keys, so a lookup only compares a key with the
keys of its own hash. Hashes are built with FNV-1a, whose primitives (the initial value, adding
a 64-bit word, adding a text) are a parameter here (`Fnv`).

A token's hash starts from the hash of its kind. A number is hashed by the text of its exact
value, so the exact `1/2` and the real `0.5` hash alike; an infinity or NaN, which has no exact
value, by its own text. Texts, booleans, symbols and variables are hashed by their text. A list
and a capture fold the hashes of their parts in order. A map adds up the hashes of its entries,
so the order of its entries does not count, and mixes in its size.
-/

namespace Reckon

/-- The FNV-1a primitives the hash of a token is built from: the initial value, and the steps
that add a 64-bit word and a text to a hash. -/
structure Fnv where
  init : UInt64
  addWord : UInt64 → UInt64 → UInt64
  addText : UInt64 → String → UInt64

/-- The number of a kind, in the order of declaration from `any` at `0`. -/
def Kind.index : Kind → UInt64
  | .any => 0
  | .number => 1
  | .text => 2
  | .bool => 3
  | .symbol => 4
  | .list => 5
  | .map => 6
  | .var => 7
  | .listCapture => 8
  | .mapCapture => 9

namespace Fnv

variable (H : Fnv)

/-- The hash of a kind. -/
def ofKind (k : Kind) : UInt64 := H.addWord H.init k.index

/-- The hash of a text of the kind `k`. -/
def ofText (k : Kind) (s : String) : UInt64 := H.addText (H.ofKind k) s

/-- The hash of a size of a collection of the kind `k`. -/
def ofSize (k : Kind) (n : Nat) : UInt64 := H.addWord (H.ofKind k) (UInt64.ofNat n)

/-- The hash of a map entry from the hashes of its key and its value. -/
def ofEntry (key value : UInt64) : UInt64 := H.addWord (H.addWord H.init key) value

end Fnv

/-- The text a number is hashed by: the text of its exact value, or its own text when it has
none. -/
def Number.hashText (n : Number) : String :=
  match n.toRat? with
  | some q => Number.ratText q
  | none => n.text

namespace Token

/-- The hash of a token. -/
def hash (H : Fnv) : Token → UInt64
  | .num n => H.ofText .number n.hashText
  | .text s => H.ofText .text s
  | .bool b => H.ofText .bool (if b then "true" else "false")
  | .sym s => H.ofText .symbol s
  | .list xs => ordered (H.ofKind .list) xs
  | .map es => H.ofSize .map es.length ^^^ entrySum es
  | .var n c => H.ofText .var (Token.var n c).render
  | .listCap h t => H.addWord (H.addWord (H.ofKind .listCapture) (hash H h)) (hash H t)
  | .mapCap k v r =>
    H.addWord (H.addWord (H.addWord (H.ofKind .mapCapture) (hash H k)) (hash H v)) (hash H r)
where
  /-- The hashes of the items added in order to `acc`. -/
  ordered (acc : UInt64) : List Token → UInt64
    | [] => acc
    | x :: xs => ordered (H.addWord acc (hash H x)) xs
  /-- The sum of the hashes of the entries. -/
  entrySum : List (Token × Token) → UInt64
    | [] => 0
    | (k, v) :: es => H.ofEntry (hash H k) (hash H v) + entrySum es

end Token

end Reckon
