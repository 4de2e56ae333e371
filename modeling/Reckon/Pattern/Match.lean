import Reckon.Token.Map

/-!
# Matching a template

A template is a sequence of tokens that may hold placeholders. Matching it against a
workspace at a position turns into a list of obligations, each a pattern token that must
match a value token, discharged from the front:

* a variable accepts a token of its category; a name already bound needs a value equal to
  its binding, and a new name binds the value;
* a list capture `[H ... T]` needs a non-empty list: `H` matches its first item and `T` the
  list of the others;
* a map capture `{K: V ... R}` needs a non-empty map. It chooses one entry: `K` matches the
  key, `V` the value and `R` the map without that entry. Every entry is a separate way to
  match;
* a list pattern that holds placeholders needs a list of as many items and matches them one
  by one; any other token must be equal to the value.

The ways to match are enumerated one at a time by a machine with a stack of suspended
attempts, each the obligations still to discharge with the bindings made so far. Asking for
the next way pops the attempt on top and resumes it. Where a map capture chooses, the attempt
goes on with the first entry and leaves one attempt per other entry on the stack, pushed so
that the second entry is resumed first. An attempt that fails is dropped and the next one is
popped; once the stack is empty there is no further way, and every later request says so.

Each attempt on the stack can only pass through the states of the search it started from,
and resuming one moves its own search forward while the attempts it leaves behind split the
rest of that search among them; the number of such states left on the stack therefore falls
with every request, and the enumeration ends.
-/

namespace Reckon

/-- Placeholder names bound to the tokens they matched, in the order they were bound. -/
abbrev Bindings := List (String × Token)

namespace Pattern

/-- The total size of the patterns of a list of obligations. -/
noncomputable def weight : List (Token × Token) → Nat
  | [] => 0
  | p :: ps => sizeOf p.1 + weight ps

@[simp] theorem weight_nil : weight [] = 0 := rfl

@[simp] theorem weight_cons (p : Token × Token) (ps : List (Token × Token)) :
    weight (p :: ps) = sizeOf p.1 + weight ps := rfl

theorem weight_append (ps qs : List (Token × Token)) :
    weight (ps ++ qs) = weight ps + weight qs := by
  induction ps with
  | nil => simp
  | cons p ps ih => simp [ih, Nat.add_assoc]

/-- The obligations of a list pattern's items weigh less than the list pattern. -/
theorem weight_zip_lt (ps xs : List Token) : weight (ps.zip xs) < sizeOf (Token.list ps) := by
  induction ps generalizing xs with
  | nil => simp
  | cons p ps ih =>
    cases xs with
    | nil =>
      simp only [List.zip_nil_right, weight_nil, Token.list.sizeOf_spec]
      omega
    | cons x xs =>
      have := ih xs
      simp at this ⊢
      omega

/-- Every token has a positive size. -/
theorem sizeOf_pos (t : Token) : 0 < sizeOf t := by
  cases t <;>
    simp only [Token.num.sizeOf_spec, Token.text.sizeOf_spec, Token.bool.sizeOf_spec,
      Token.sym.sizeOf_spec, Token.list.sizeOf_spec, Token.map.sizeOf_spec, Token.var.sizeOf_spec,
      Token.listCap.sizeOf_spec, Token.mapCap.sizeOf_spec] <;>
    omega

theorem weight_lt_cons (p : Token × Token) (ps : List (Token × Token)) :
    weight ps < weight (p :: ps) := by
  have := sizeOf_pos p.1
  rw [weight_cons]
  omega

/-- The obligations of a map capture `{k: v ... r}` that chooses the entry `e`, the `i`-th of
the map `es`. -/
def entryPairs (k v r : Token) (es : List (Token × Token)) (i : Nat) (e : Token × Token) :
    List (Token × Token) :=
  [(k, e.1), (v, e.2), (r, .map (Entries.eraseAt es i))]

/-- A suspended match attempt: the obligations still to discharge and the bindings made so
far. -/
structure Choice where
  pending : List (Token × Token)
  binds : Bindings

/-- Resumes an attempt from the obligations `pending` and the bindings `binds`, with `stack`
the attempts suspended so far, next to resume first. The result is the bindings once every
obligation is discharged, or none when one fails, with the stack as the attempt leaves it:
the choices of its map captures on top, the second entry of a map first. -/
def resume (pending : List (Token × Token)) (binds : Bindings) (stack : List Choice) :
    Option Bindings × List Choice :=
  match pending with
  | [] => (some binds, stack)
  | (pat, val) :: rest =>
    match pat with
    | .var name cat =>
      if !Token.accepts cat val then (none, stack)
      else
        match binds.lookup name with
        | some prev => if prev.equal val then resume rest binds stack else (none, stack)
        | none => resume rest (binds ++ [(name, val)]) stack
    | .listCap h t =>
      match val with
      | .list (x :: xs) => resume ((h, x) :: (t, .list xs) :: rest) binds stack
      | _ => (none, stack)
    | .mapCap k v r =>
      match val with
      | .map es@(e :: _) =>
        resume (entryPairs k v r es 0 e ++ rest) binds
          ((es.zipIdx.drop 1).map (fun p => ⟨entryPairs k v r es p.2 p.1 ++ rest, binds⟩) ++ stack)
      | _ => (none, stack)
    | .list ps =>
      if !(Token.list ps).hasPlaceholder then
        if (Token.list ps).equal val then resume rest binds stack else (none, stack)
      else
        match val with
        | .list xs =>
          if xs.length == ps.length then resume (ps.zip xs ++ rest) binds stack
          else (none, stack)
        | _ => (none, stack)
    | _ => if pat.equal val then resume rest binds stack else (none, stack)
termination_by weight pending
decreasing_by
  · exact weight_lt_cons _ _
  · exact weight_lt_cons _ _
  · simp only [weight_cons, Token.listCap.sizeOf_spec]
    omega
  · simp only [entryPairs, List.cons_append, List.nil_append, weight_cons,
      Token.mapCap.sizeOf_spec]
    omega
  · exact weight_lt_cons _ _
  · have := weight_zip_lt ps xs
    simp only [weight_append, weight_cons]
    omega
  · exact weight_lt_cons _ _

/-- The obligations the search goes on with after the obligation `(pat, val)`, one list for
each way it may go, whatever the bindings: one way past a variable or a token compared by
equality, one per entry for a map capture, none where the value has the wrong shape. -/
def branches (pat val : Token) (rest : List (Token × Token)) : List (List (Token × Token)) :=
  match pat with
  | .listCap h t =>
    match val with
    | .list (x :: xs) => [(h, x) :: (t, .list xs) :: rest]
    | _ => []
  | .mapCap k v r =>
    match val with
    | .map es => es.zipIdx.map fun p => entryPairs k v r es p.2 p.1 ++ rest
    | _ => []
  | .list ps =>
    if !(Token.list ps).hasPlaceholder then [rest]
    else
      match val with
      | .list xs => if xs.length == ps.length then [ps.zip xs ++ rest] else []
      | _ => []
  | _ => [rest]

/-- Every way on has lighter patterns than the obligations it came from. -/
theorem weight_lt_of_mem_branches {pat val : Token} {rest q : List (Token × Token)}
    (h : q ∈ branches pat val rest) : weight q < weight ((pat, val) :: rest) := by
  have hpat := sizeOf_pos pat
  unfold branches at h
  split at h
  next hd tl =>
    split at h
    · simp only [List.mem_singleton] at h
      subst h
      simp only [weight_cons, Token.listCap.sizeOf_spec]
      omega
    · simp at h
  next k v r =>
    split at h
    · obtain ⟨⟨e, i⟩, -, rfl⟩ := List.mem_map.mp h
      simp only [entryPairs, List.cons_append, List.nil_append, weight_cons,
        Token.mapCap.sizeOf_spec]
      omega
    · simp at h
  next ps =>
    split at h
    · simp only [List.mem_singleton] at h
      subst h
      simp only [weight_cons]
      omega
    · split at h
      next xs =>
        split at h
        · simp only [List.mem_singleton] at h
          subst h
          have := weight_zip_lt ps xs
          simp only [weight_append, weight_cons]
          omega
        · simp at h
      · simp at h
  · simp only [List.mem_singleton] at h
    subst h
    simp only [weight_cons]
    omega

/-- The number of states the search for `pending` can pass through, whatever the bindings. -/
def searchSize : List (Token × Token) → Nat
  | [] => 1
  | (pat, val) :: rest => 1 + (branches pat val rest).attach.foldr (fun q n => searchSize q.1 + n) 0
termination_by pending => weight pending
decreasing_by exact weight_lt_of_mem_branches q.2

/-- The states of the searches of several lists of obligations. -/
def searchSizes (qs : List (List (Token × Token))) : Nat :=
  qs.foldr (fun q n => searchSize q + n) 0

@[simp] theorem searchSizes_nil : searchSizes [] = 0 := rfl

@[simp] theorem searchSizes_cons (q : List (Token × Token)) (qs : List (List (Token × Token))) :
    searchSizes (q :: qs) = searchSize q + searchSizes qs := rfl

theorem searchSize_cons (pat val : Token) (rest : List (Token × Token)) :
    searchSize ((pat, val) :: rest) = 1 + searchSizes (branches pat val rest) := by
  rw [searchSize, searchSizes]
  congr 1
  exact @List.foldr_attach _ _ _ (fun q n => searchSize q + n) 0

theorem searchSize_of_branches_eq {pat val : Token} {rest q : List (Token × Token)}
    {others : List (List (Token × Token))} (h : branches pat val rest = q :: others) :
    searchSize ((pat, val) :: rest) = 1 + searchSize q + searchSizes others := by
  rw [searchSize_cons, h, searchSizes_cons]
  omega

theorem searchSize_of_branches_eq_singleton {pat val : Token} {rest q : List (Token × Token)}
    (h : branches pat val rest = [q]) : searchSize ((pat, val) :: rest) = 1 + searchSize q := by
  rw [searchSize_of_branches_eq h, searchSizes_nil, Nat.add_zero]

/-- The states left to search on a stack of attempts. -/
def stackSize : List Choice → Nat
  | [] => 0
  | c :: stack => searchSize c.pending + stackSize stack

@[simp] theorem stackSize_nil : stackSize [] = 0 := rfl

@[simp] theorem stackSize_cons (c : Choice) (stack : List Choice) :
    stackSize (c :: stack) = searchSize c.pending + stackSize stack := rfl

@[simp] theorem stackSize_append (s t : List Choice) :
    stackSize (s ++ t) = stackSize s + stackSize t := by
  induction s with
  | nil => simp
  | cons c s ih => simp [ih, Nat.add_assoc]

theorem searchSize_pos (pending : List (Token × Token)) : 0 < searchSize pending := by
  cases pending with
  | nil => simp [searchSize]
  | cons p rest => rw [searchSize]; omega

/-- The attempts a map capture leaves behind hold the searches of the entries after the first. -/
theorem stackSize_map (ps : List ((Token × Token) × Nat))
    (f : (Token × Token) × Nat → List (Token × Token)) (binds : Bindings) :
    stackSize (ps.map fun p => ⟨f p, binds⟩) = searchSizes (ps.map f) := by
  induction ps with
  | nil => rfl
  | cons p ps ih => simp [ih]

/-- Resuming an attempt leaves fewer states to search than the attempt and the stack held. -/
theorem stackSize_resume (pending : List (Token × Token)) (binds : Bindings) (stack : List Choice) :
    stackSize (resume pending binds stack).2 < searchSize pending + stackSize stack := by
  fun_induction resume pending binds stack with
  -- an attempt that fails or succeeds drops its own search and leaves the stack as it was
  | case1 | case2 | case4 | case7 | case9 | case11 | case13 | case14 =>
    exact Nat.lt_add_of_pos_left (searchSize_pos _)
  | case16 binds stack pat val rest hne _ _ _ _ =>
    rw [if_neg hne]
    exact Nat.lt_add_of_pos_left (searchSize_pos _)
  -- an attempt that goes on along its only branch
  | case3 binds stack val rest name cat _ _ _ _ ih | case5 binds stack val rest name cat _ _ ih =>
    have hb : branches (.var name cat) val rest = [rest] := rfl
    rw [searchSize_of_branches_eq_singleton hb]
    omega
  | case6 binds stack rest h t x xs ih =>
    have hb : branches (.listCap h t) (.list (x :: xs)) rest = [(h, x) :: (t, .list xs) :: rest] :=
      rfl
    rw [searchSize_of_branches_eq_singleton hb]
    omega
  | case10 binds stack val rest ps hlit _ ih =>
    have hb : branches (.list ps) val rest = [rest] := by simp [branches, hlit]
    rw [searchSize_of_branches_eq_singleton hb]
    omega
  | case12 binds stack rest ps hlit xs hlen ih =>
    have hb : branches (.list ps) (.list xs) rest = [ps.zip xs ++ rest] := by
      simp [branches, hlit, hlen]
    rw [searchSize_of_branches_eq_singleton hb]
    omega
  | case15 binds stack pat val rest heq hvar hlc hmc hlist ih =>
    have hb : branches pat val rest = [rest] := by
      unfold branches
      split
      · exact absurd rfl (hlc _ _)
      · exact absurd rfl (hmc _ _ _)
      · exact absurd rfl (hlist _)
      · rfl
    rw [if_pos heq, searchSize_of_branches_eq_singleton hb]
    omega
  -- a map capture goes on with its first entry and leaves the others on the stack
  | case8 binds stack rest k v r e tail ih =>
    have hb : branches (.mapCap k v r) (.map (e :: tail)) rest =
        (entryPairs k v r (e :: tail) 0 e ++ rest) ::
          ((e :: tail).zipIdx.drop 1).map fun p => entryPairs k v r (e :: tail) p.2 p.1 ++ rest := by
      simp [branches, List.zipIdx_cons]
    rw [stackSize_append, stackSize_map] at ih
    rw [searchSize_of_branches_eq hb]
    omega

/-- The enumeration of the ways a template matches: the suspended attempts, the one to resume
next first. -/
structure Matches where
  choices : List Choice

namespace Matches

/-- The enumeration of the ways `tmpl` matches `ws` at `pos`: one attempt with an obligation
per template token, or none when the template is empty or does not fit at `pos`. -/
def start (tmpl ws : List Token) (pos : Int) : Matches :=
  if tmpl.isEmpty || pos < 0 || ws.length < pos.toNat + tmpl.length then ⟨[]⟩
  else ⟨[⟨tmpl.zip (ws.drop pos.toNat), []⟩]⟩

/-- The next way to match, with the enumeration that remains: attempts are popped and resumed
until one succeeds; none is left once the stack is empty. -/
def next (m : Matches) : Option Bindings × Matches :=
  match h : m.choices with
  | [] => (none, ⟨[]⟩)
  | c :: cs =>
    match hr : resume c.pending c.binds cs with
    | (some b, stack) => (some b, ⟨stack⟩)
    | (none, stack) => next ⟨stack⟩
termination_by stackSize m.choices
decreasing_by
  have := stackSize_resume c.pending c.binds cs
  rw [hr] at this
  simp only [h, stackSize_cons]
  exact this

/-- The ways found by asking for the next one up to `n` times, stopping at the first request
that finds none. -/
def take : Nat → Matches → List Bindings
  | 0, _ => []
  | n + 1, m =>
    match m.next with
    | (some b, m') => b :: take n m'
    | (none, _) => []

end Matches

end Pattern

namespace Template

/-- The first `limit` ways in which the template `tmpl` matches the workspace `ws` at `pos`.
There are none when the template is empty or does not fit at `pos`. -/
def solutions (limit : Nat) (tmpl ws : List Token) (pos : Int) : List Bindings :=
  (Pattern.Matches.start tmpl ws pos).take limit

/-- The first way in which the template matches at `pos`. -/
def firstMatch (tmpl ws : List Token) (pos : Int) : Option Bindings :=
  (Pattern.Matches.start tmpl ws pos).next.1

end Template

end Reckon
