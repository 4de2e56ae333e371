import Reckon.Token.Hash

/-!
# Maps

A map token holds its entries in insertion order. Building a map from a list of entries keeps
one entry per key: the first position at which an equal key occurs, with the value of the last
entry that has it. Removing an entry and merging two maps both rebuild the map this way, so
in a merge the second map's values win while the first map's positions stay.

A map of the source also keeps an index from the hash of each key to the positions of the
entries with a key of that hash, in the order they were added, and looks for a key only at the
positions of its hash (`Entries.Indexed`). The operations here look through all the entries
from the first; on well-keyed keys the two searches agree (`Entries.indexed_eq`).
-/

namespace Reckon

namespace Entries

/-- The position of the first entry whose key equals `key`. -/
def findKey? (es : List (Token × Token)) (key : Token) : Option Nat :=
  es.findIdx? (fun e => e.1.equal key)

/-- Adds the entry `e`: an equal key already present takes its value, otherwise `e` goes last. -/
def insert (es : List (Token × Token)) (e : Token × Token) : List (Token × Token) :=
  match findKey? es e.1 with
  | some i => es.modify i (fun old => (old.1, e.2))
  | none => es ++ [e]

/-- The map built from `es`, one entry per key. -/
def build (es : List (Token × Token)) : List (Token × Token) :=
  es.foldl insert []

/-- The value of the first entry whose key equals `key`. -/
def get? (es : List (Token × Token)) (key : Token) : Option Token :=
  (es.find? (fun e => e.1.equal key)).map (·.2)

/-- The map without its `i`-th entry. -/
def eraseAt (es : List (Token × Token)) (i : Nat) : List (Token × Token) :=
  build (es.eraseIdx i)

/-- The map of `es` with the entries of `fs` added after them. -/
def merge (es fs : List (Token × Token)) : List (Token × Token) :=
  build (es ++ fs)

namespace Indexed

variable (H : Fnv)

/-- The position of the first entry whose key has the hash of `key` and equals it: the first
position the index holds for that hash whose key equals `key`. -/
def findKey? (es : List (Token × Token)) (key : Token) : Option Nat :=
  es.findIdx? fun e => e.1.hash H == key.hash H && e.1.equal key

/-- Adds the entry `e`, searching through the index. -/
def insert (es : List (Token × Token)) (e : Token × Token) : List (Token × Token) :=
  match findKey? H es e.1 with
  | some i => es.modify i (fun old => (old.1, e.2))
  | none => es ++ [e]

/-- The map built from `es`, searching through the index. -/
def build (es : List (Token × Token)) : List (Token × Token) :=
  es.foldl (insert H) []

/-- The value at the position the index finds for `key`. -/
def get? (es : List (Token × Token)) (key : Token) : Option Token :=
  (findKey? H es key).bind fun i => es[i]?.map (·.2)

/-- The merge of two maps, searching through the index. -/
def merge (es fs : List (Token × Token)) : List (Token × Token) :=
  build H (es ++ fs)

end Indexed

end Entries

end Reckon
