import Reckon.Proofs.Brackets.Compile
import Reckon.Proofs.Pattern.Instantiate

/-!
# Patterns as written

The pattern of a definition is written in the compiler's bracket language: a word, or a list
pattern `[a, b]` or `[a, b ... T]`, or a map pattern `{k: v}` or `{k: v ... R}`, whose items are
written patterns again. `Written` is that language as a tree, and `Written.text` writes a tree
out as the tokens the lexer gives for it.

Three readings of the text follow. `Written.compile` is the template token the compiler builds:
reading the text token by token with its stack of open brackets hands over exactly that token
(`Compiler.foldlM_step_text`), and the replacement reader keeps the text, placeholder words
turned into variables (`Compiler.replacement_text`). `Written.fold?` is the value the built-in
folding rules build from the text once its words are values, bracket by bracket; a list tail
must then be a list and a map remainder a map.

The two builders of a map pattern with a remainder disagree on which side wins a key they
share: the compiler merges the remainder into the entries of a map pattern without
placeholders, while the folding rule merges the entries into the remainder. `KeepsKeys` says
that no pattern asks them to decide: where a literal map pattern's remainder gives a key of its
entries, it gives it an equal value.
-/

namespace Reckon

/-- A pattern as written: a word, or a list or map pattern of written items, with a tail or a
remainder after `...`. -/
inductive Written where
  | word (t : Token)
  | list (items : List Written)
  | listTail (items : List Written) (tail : Written)
  | map (entries : List (Written × Written))
  | mapRest (entries : List (Written × Written)) (rest : Written)

namespace Written

mutual
/-- The tokens of a written pattern: items separated by commas, keys and values by colons. -/
def text : Written → List Token
  | .word t => [t]
  | .list xs => .sym "[" :: (textItems xs).tail ++ [.sym "]"]
  | .listTail xs t => .sym "[" :: (textItems xs).tail ++ .sym "..." :: text t ++ [.sym "]"]
  | .map es => .sym "\x7b" :: (textEntries es).tail ++ [.sym "\x7d"]
  | .mapRest es r =>
    .sym "\x7b" :: (textEntries es).tail ++ .sym "..." :: text r ++ [.sym "\x7d"]
/-- The tokens of items, each after a comma. -/
def textItems : List Written → List Token
  | [] => []
  | x :: xs => .sym "," :: text x ++ textItems xs
/-- The tokens of entries, each after a comma, with a colon between key and value. -/
def textEntries : List (Written × Written) → List Token
  | [] => []
  | (k, v) :: es => .sym "," :: text k ++ .sym ":" :: text v ++ textEntries es
end

mutual
/-- The template token the compiler reads from the text: list patterns with a tail nest list
captures, and map patterns nest map captures unless no placeholder occurs in them. -/
def compile : Written → Token
  | .word t => Compiler.placeholder t
  | .list xs => .list (compileItems xs)
  | .listTail xs t => (compileItems xs).foldr .listCap (compile t)
  | .map es => Compiler.finishMap (compileEntries es) (.map [])
  | .mapRest es r => Compiler.finishMap (compileEntries es) (compile r)
/-- The template tokens of items. -/
def compileItems : List Written → List Token
  | [] => []
  | x :: xs => compile x :: compileItems xs
/-- The template tokens of entries. -/
def compileEntries : List (Written × Written) → List (Token × Token)
  | [] => []
  | (k, v) :: es => (compile k, compile v) :: compileEntries es
end

mutual
/-- The value the folding rules build from the text, when its words are values: a list tail
must be a list, and a map remainder a map, whose entries the written entries override. -/
def fold? : Written → Option Token
  | .word t => if t.isValue then some t else none
  | .list xs => (foldItems? xs).map .list
  | .listTail [] _ => none
  | .listTail (x :: xs) t =>
    match foldItems? (x :: xs), fold? t with
    | some vs, some (.list ts) => some (.list (vs ++ ts))
    | _, _ => none
  | .map es => (foldEntries? es).map fun es' => .map (Entries.build es')
  | .mapRest [] _ => none
  | .mapRest (e :: es) r =>
    match foldEntries? (e :: es), fold? r with
    | some es', some (.map rs) => some (.map (Entries.merge rs (Entries.build es')))
    | _, _ => none
/-- The values of items, when each folds. -/
def foldItems? : List Written → Option (List Token)
  | [] => some []
  | x :: xs =>
    match fold? x, foldItems? xs with
    | some v, some vs => some (v :: vs)
    | _, _ => none
/-- The values of entries, when each key and value folds. -/
def foldEntries? : List (Written × Written) → Option (List (Token × Token))
  | [] => some []
  | (k, v) :: es =>
    match fold? k, fold? v, foldEntries? es with
    | some k', some v', some es' => some ((k', v') :: es')
    | _, _, _ => none
end

mutual
/-- The pattern with `g` applied to each of its words. -/
def mapWords (g : Token → Token) : Written → Written
  | .word t => .word (g t)
  | .list xs => .list (mapItems g xs)
  | .listTail xs t => .listTail (mapItems g xs) (mapWords g t)
  | .map es => .map (mapEntries g es)
  | .mapRest es r => .mapRest (mapEntries g es) (mapWords g r)
/-- The items with `g` applied to their words. -/
def mapItems (g : Token → Token) : List Written → List Written
  | [] => []
  | x :: xs => mapWords g x :: mapItems g xs
/-- The entries with `g` applied to their words. -/
def mapEntries (g : Token → Token) : List (Written × Written) → List (Written × Written)
  | [] => []
  | (k, v) :: es => (mapWords g k, mapWords g v) :: mapEntries g es
end

mutual
/-- The number of list and map patterns, at any depth. -/
def brackets : Written → Nat
  | .word _ => 0
  | .list xs => bracketsItems xs + 1
  | .listTail xs t => bracketsItems xs + brackets t + 1
  | .map es => bracketsEntries es + 1
  | .mapRest es r => bracketsEntries es + brackets r + 1
/-- The number of list and map patterns in items. -/
def bracketsItems : List Written → Nat
  | [] => 0
  | x :: xs => brackets x + bracketsItems xs
/-- The number of list and map patterns in entries. -/
def bracketsEntries : List (Written × Written) → Nat
  | [] => 0
  | (k, v) :: es => brackets k + brackets v + bracketsEntries es
end

end Written

namespace Token

/-- A literal word of a pattern: a number other than NaN, a text or a boolean. -/
def Literal (t : Token) : Prop :=
  (∃ n, t = .num n ∧ n.isNaN = false) ∨ (∃ s, t = .text s) ∨ (∃ b, t = .bool b)

/-- Whether the token is a symbol of the bracket language: a bracket of a list or map pattern, a
separator, or the dots before a tail or remainder. -/
def isStructure : Token → Bool
  | .sym s => ["[", "]", "\x7b", "\x7d", ",", ":", "..."].contains s
  | _ => false

end Token

namespace Written

/-- A written pattern the compiler reads: its words are placeholders or literals, and a list
tail or map remainder follows at least one item and stands for a list or a map. -/
inductive Pattern : Written → Prop
  | placeholder {s : String} (h : Compiler.isPlaceholderName s = true) : Pattern (.word (.sym s))
  | literal {t : Token} (h : t.Literal) : Pattern (.word t)
  | list {xs : List Written} (h : ∀ x ∈ xs, Pattern x) : Pattern (.list xs)
  | listTail {x : Written} {xs : List Written} {t : Written} (h : ∀ y ∈ x :: xs, Pattern y)
      (ht : Pattern t) (hfit : Compiler.fitsKind t.compile .list = true) :
      Pattern (.listTail (x :: xs) t)
  | map {es : List (Written × Written)} (hk : ∀ e ∈ es, Pattern e.1)
      (hv : ∀ e ∈ es, Pattern e.2) : Pattern (.map es)
  | mapRest {e : Written × Written} {es : List (Written × Written)} {r : Written}
      (hk : ∀ f ∈ e :: es, Pattern f.1) (hv : ∀ f ∈ e :: es, Pattern f.2) (hr : Pattern r)
      (hfit : Compiler.fitsKind r.compile .map = true) : Pattern (.mapRest (e :: es) r)

/-- No map pattern without placeholders has a remainder that gives a key of its entries another
value: the compiler and the folding rule then build equal maps. -/
inductive KeepsKeys : Written → Prop
  | word {t : Token} : KeepsKeys (.word t)
  | list {xs : List Written} (h : ∀ x ∈ xs, KeepsKeys x) : KeepsKeys (.list xs)
  | listTail {xs : List Written} {t : Written} (h : ∀ x ∈ xs, KeepsKeys x) (ht : KeepsKeys t) :
      KeepsKeys (.listTail xs t)
  | map {es : List (Written × Written)} (hk : ∀ e ∈ es, KeepsKeys e.1)
      (hv : ∀ e ∈ es, KeepsKeys e.2) : KeepsKeys (.map es)
  | mapRest {es : List (Written × Written)} {r : Written} (hk : ∀ e ∈ es, KeepsKeys e.1)
      (hv : ∀ e ∈ es, KeepsKeys e.2) (hr : KeepsKeys r)
      (hkeep : (compileEntries es).all (fun e => !e.1.hasPlaceholder && !e.2.hasPlaceholder) →
        ∀ rs, r.compile = .map rs → ∀ f ∈ rs, ∀ w,
          Entries.get? (Entries.build (compileEntries es)) f.1 = some w → f.2.equal w = true) :
      KeepsKeys (.mapRest es r)

end Written

/-! ### The text, piece by piece -/

namespace Written

@[elab_as_elim]
theorem induction {motive : Written → Prop} (word : ∀ t, motive (.word t))
    (list : ∀ xs, (∀ x ∈ xs, motive x) → motive (.list xs))
    (listTail : ∀ xs t, (∀ x ∈ xs, motive x) → motive t → motive (.listTail xs t))
    (map : ∀ es, (∀ e ∈ es, motive e.1 ∧ motive e.2) → motive (.map es))
    (mapRest : ∀ es r, (∀ e ∈ es, motive e.1 ∧ motive e.2) → motive r → motive (.mapRest es r))
    (P : Written) : motive P := by
  apply Written.text.induct motive (fun es => ∀ e ∈ es, motive e.1 ∧ motive e.2)
    (fun xs => ∀ x ∈ xs, motive x) word list listTail map mapRest
  · simp
  · intro x xs hx hxs
    simpa [hx] using hxs
  · simp
  · intro k v es hk hv hes
    simpa [hk, hv] using hes

section Text

attribute [local simp] text textItems textEntries

theorem text_list_cons (x : Written) (xs : List Written) :
    (list (x :: xs)).text = .sym "[" :: (x.text ++ (textItems xs ++ [.sym "]"])) := by
  simp

theorem text_listTail_cons (x : Written) (xs : List Written) (t : Written) :
    (listTail (x :: xs) t).text =
      .sym "[" :: (x.text ++ (textItems xs ++ .sym "..." :: (t.text ++ [.sym "]"]))) := by
  simp

theorem text_map_cons (k v : Written) (es : List (Written × Written)) :
    (map ((k, v) :: es)).text =
      .sym "\x7b" :: (k.text ++ .sym ":" :: (v.text ++ (textEntries es ++ [.sym "\x7d"]))) := by
  simp

theorem text_mapRest_cons (k v : Written) (es : List (Written × Written)) (r : Written) :
    (mapRest ((k, v) :: es) r).text = .sym "\x7b" :: (k.text ++ .sym ":" :: (v.text ++
      (textEntries es ++ .sym "..." :: (r.text ++ [.sym "\x7d"])))) := by
  simp

theorem textItems_cons (x : Written) (xs : List Written) :
    textItems (x :: xs) = .sym "," :: (x.text ++ textItems xs) := by
  simp

theorem textEntries_cons (k v : Written) (es : List (Written × Written)) :
    textEntries ((k, v) :: es) = .sym "," :: (k.text ++ .sym ":" :: (v.text ++ textEntries es)) := by
  simp

end Text

theorem mem_textItems {t : Token} {xs : List Written} (h : t ∈ textItems xs) :
    t.isStructure = true ∨ ∃ x ∈ xs, t ∈ x.text := by
  induction xs with
  | nil => simp [textItems] at h
  | cons x xs ih =>
    rw [textItems_cons, List.mem_cons, List.mem_append] at h
    rcases h with rfl | h | h
    · exact .inl rfl
    · exact .inr ⟨x, List.mem_cons_self, h⟩
    · rcases ih h with h | ⟨y, hy, h⟩
      · exact .inl h
      · exact .inr ⟨y, List.mem_cons_of_mem _ hy, h⟩

theorem mem_textEntries {t : Token} {es : List (Written × Written)} (h : t ∈ textEntries es) :
    t.isStructure = true ∨ ∃ e ∈ es, t ∈ e.1.text ∨ t ∈ e.2.text := by
  induction es with
  | nil => simp [textEntries] at h
  | cons e es ih =>
    obtain ⟨k, v⟩ := e
    rw [textEntries_cons] at h
    simp only [List.mem_cons, List.mem_append] at h
    rcases h with rfl | h | rfl | h | h
    · exact .inl rfl
    · exact .inr ⟨(k, v), List.mem_cons_self, .inl h⟩
    · exact .inl rfl
    · exact .inr ⟨(k, v), List.mem_cons_self, .inr h⟩
    · rcases ih h with h | ⟨f, hf, h⟩
      · exact .inl h
      · exact .inr ⟨f, List.mem_cons_of_mem _ hf, h⟩

theorem mem_text_list {t : Token} {xs : List Written} (h : t ∈ (list xs).text) :
    t.isStructure = true ∨ ∃ x ∈ xs, t ∈ x.text := by
  simp only [text, List.cons_append, List.mem_cons, List.mem_append, List.not_mem_nil,
    or_false] at h
  rcases h with rfl | h | rfl
  · exact .inl rfl
  · exact mem_textItems (List.mem_of_mem_tail h)
  · exact .inl rfl

theorem mem_text_listTail {t : Token} {xs : List Written} {r : Written}
    (h : t ∈ (listTail xs r).text) :
    t.isStructure = true ∨ (∃ x ∈ xs, t ∈ x.text) ∨ t ∈ r.text := by
  simp only [text, List.cons_append, List.mem_cons, List.mem_append, List.not_mem_nil,
    or_false] at h
  rcases h with rfl | (h | rfl | h) | rfl
  · exact .inl rfl
  · exact (mem_textItems (List.mem_of_mem_tail h)).imp_right .inl
  · exact .inl rfl
  · exact .inr (.inr h)
  · exact .inl rfl

theorem mem_text_map {t : Token} {es : List (Written × Written)} (h : t ∈ (map es).text) :
    t.isStructure = true ∨ ∃ e ∈ es, t ∈ e.1.text ∨ t ∈ e.2.text := by
  simp only [text, List.cons_append, List.mem_cons, List.mem_append, List.not_mem_nil,
    or_false] at h
  rcases h with rfl | h | rfl
  · exact .inl rfl
  · exact mem_textEntries (List.mem_of_mem_tail h)
  · exact .inl rfl

theorem mem_text_mapRest {t : Token} {es : List (Written × Written)} {r : Written}
    (h : t ∈ (mapRest es r).text) :
    t.isStructure = true ∨ (∃ e ∈ es, t ∈ e.1.text ∨ t ∈ e.2.text) ∨ t ∈ r.text := by
  simp only [text, List.cons_append, List.mem_cons, List.mem_append, List.not_mem_nil,
    or_false] at h
  rcases h with rfl | (h | rfl | h) | rfl
  · exact .inl rfl
  · exact (mem_textEntries (List.mem_of_mem_tail h)).imp_right .inl
  · exact .inl rfl
  · exact .inr (.inr h)
  · exact .inl rfl

/-- Rewriting the words of a pattern rewrites its text token by token, when the rewriting
leaves the symbols of the bracket language alone. -/
theorem text_mapWords {g : Token → Token} (hg : ∀ t, t.isStructure = true → g t = t) :
    ∀ P : Written, (P.mapWords g).text = P.text.map g := by
  have h : ∀ s, (Token.sym s).isStructure = true → g (.sym s) = .sym s := fun s hs => hg _ hs
  apply Written.text.induct (fun P => (P.mapWords g).text = P.text.map g)
    (fun es => textEntries (mapEntries g es) = (textEntries es).map g)
    (fun xs => textItems (mapItems g xs) = (textItems xs).map g)
  all_goals
    intros
    simp_all [mapWords, mapItems, mapEntries, text, textItems, textEntries, List.map_tail,
      Token.isStructure]

end Written

namespace Compiler

theorem isPlaceholderName_structure :
    ∀ s ∈ ["[", "]", "\x7b", "\x7d", ",", ":", "...", "(", ")"], isPlaceholderName s = false := by
  decide +kernel

/-- Whether the reader waits for an item: at the top level, or where an item goes in the
innermost open bracket. -/
def Reading.Awaits (r : Reading) : Prop :=
  match r.stack with
  | [] => True
  | .list _ .start :: _ | .list _ .item :: _ | .list _ .tail :: _ => True
  | .map _ .start :: _ | .map _ .key :: _ | .map _ (.value _) :: _ | .map _ .rest :: _ => True
  | _ => False

section Steps

attribute [local simp] step

theorem step_open_list {r : Reading} (hr : r.Awaits) :
    step r (.sym "[") = .ok { r with stack := .list [] .start :: r.stack } := by
  obtain ⟨out, parens, stack⟩ := r
  rcases stack with _ | ⟨⟨items, _ | _ | _ | _ | _⟩ | ⟨es, _ | _ | _ | _ | _ | _ | _⟩, fs⟩ <;>
    simp_all [Reading.Awaits, openItem, Token.isSym]

theorem step_open_map {r : Reading} (hr : r.Awaits) :
    step r (.sym "\x7b") = .ok { r with stack := .map [] .start :: r.stack } := by
  obtain ⟨out, parens, stack⟩ := r
  rcases stack with _ | ⟨⟨items, _ | _ | _ | _ | _⟩ | ⟨es, _ | _ | _ | _ | _ | _ | _⟩, fs⟩ <;>
    simp_all [Reading.Awaits, openItem, Token.isSym]

theorem step_word {r : Reading} (hr : r.Awaits) {t : Token}
    (ht : (∃ s, t = .sym s ∧ isPlaceholderName s = true) ∨ t.Literal) :
    step r t = deliver (placeholder t) r := by
  -- the word is none of the symbols the reader acts on
  have hsym : ∀ s ∈ ["[", "]", "\x7b", "\x7d", ",", ":", "...", "(", ")"], t.isSym s = false := by
    intro s hs
    rcases ht with ⟨u, rfl, hu⟩ | ⟨n, rfl, -⟩ | ⟨u, rfl⟩ | ⟨b, rfl⟩
    · have hne : u ≠ s := fun h => by
        rw [h, isPlaceholderName_structure s hs] at hu
        cases hu
      simp [Token.isSym, hne]
    all_goals rfl
  have hitem : ((placeholder t).isPlaceholder || (placeholder t).isValue) = true := by
    rcases ht with ⟨u, rfl, hu⟩ | ⟨n, rfl, -⟩ | ⟨u, rfl⟩ | ⟨b, rfl⟩ <;>
      simp_all [placeholder, Token.isPlaceholder, Token.isValue, Token.kind]
  simp only [List.mem_cons, List.not_mem_nil, or_false, forall_eq_or_imp, forall_eq] at hsym
  obtain ⟨h1, h2, h3, h4, -, -, h7, h8, h9⟩ := hsym
  obtain ⟨out, parens, stack⟩ := r
  rcases stack with _ | ⟨⟨items, _ | _ | _ | _ | _⟩ | ⟨es, _ | _ | _ | _ | _ | _ | _⟩, fs⟩ <;>
    simp_all [Reading.Awaits, openItem, deliver]

theorem ok_bind {ε α β : Type} (a : α) (f : α → Except ε β) : (Except.ok a >>= f) = f a := rfl

theorem deliver_list_item (i : Token) (out : List Token) (parens : Nat) (items : List Token)
    (ph : ListPhase) (hph : ph = .start ∨ ph = .item) (fs : List Frame) :
    deliver i ⟨out, parens, .list items ph :: fs⟩ =
      .ok ⟨out, parens, .list (items ++ [i]) .afterItem :: fs⟩ := by
  rcases hph with rfl | rfl <;> rfl

theorem foldlM_step_textItems {xs : List Written}
    (ih : ∀ x ∈ xs, ∀ {r : Reading}, r.Awaits → x.text.foldlM step r = deliver x.compile r)
    (out : List Token) (parens : Nat) (items : List Token) (fs : List Frame) :
    (Written.textItems xs).foldlM step ⟨out, parens, .list items .afterItem :: fs⟩ =
      .ok ⟨out, parens, .list (items ++ Written.compileItems xs) .afterItem :: fs⟩ := by
  induction xs generalizing items with
  | nil =>
    simp only [Written.textItems, Written.compileItems, List.append_nil, List.foldlM_nil]
    rfl
  | cons x xs ihxs =>
    have hx := ih x List.mem_cons_self (r := ⟨out, parens, .list items .item :: fs⟩) trivial
    rw [deliver_list_item _ _ _ _ _ (.inr rfl)] at hx
    simp only [Written.textItems, Written.compileItems, List.foldlM_cons, List.foldlM_append]
    simp [Token.isSym, ok_bind, hx, ihxs fun y hy => ih y (List.mem_cons_of_mem _ hy)]

theorem deliver_map_key (i : Token) (out : List Token) (parens : Nat)
    (es : List (Token × Token)) (ph : MapPhase) (hph : ph = .start ∨ ph = .key) (fs : List Frame) :
    deliver i ⟨out, parens, .map es ph :: fs⟩ = .ok ⟨out, parens, .map es (.afterKey i) :: fs⟩ := by
  rcases hph with rfl | rfl <;> rfl

theorem deliver_map_value (i k : Token) (out : List Token) (parens : Nat)
    (es : List (Token × Token)) (fs : List Frame) :
    deliver i ⟨out, parens, .map es (.value k) :: fs⟩ =
      .ok ⟨out, parens, .map (es ++ [(k, i)]) .afterValue :: fs⟩ := rfl

theorem foldlM_step_entry {k v : Written}
    (ihk : ∀ {r : Reading}, r.Awaits → k.text.foldlM step r = deliver k.compile r)
    (ihv : ∀ {r : Reading}, r.Awaits → v.text.foldlM step r = deliver v.compile r)
    (out : List Token) (parens : Nat) (es : List (Token × Token)) (ph : MapPhase)
    (hph : ph = .start ∨ ph = .key) (fs : List Frame) :
    (k.text ++ .sym ":" :: v.text).foldlM step ⟨out, parens, .map es ph :: fs⟩ =
      .ok ⟨out, parens, .map (es ++ [(k.compile, v.compile)]) .afterValue :: fs⟩ := by
  have hk := ihk (r := ⟨out, parens, .map es ph :: fs⟩) (by rcases hph with rfl | rfl <;> trivial)
  have hv := ihv (r := ⟨out, parens, .map es (.value k.compile) :: fs⟩) trivial
  rw [deliver_map_key _ _ _ _ _ hph] at hk
  rw [deliver_map_value] at hv
  simp [List.foldlM_append, hk, ok_bind, Token.isSym, hv]

theorem foldlM_step_textEntries {es : List (Written × Written)}
    (ihk : ∀ e ∈ es, ∀ {r : Reading}, r.Awaits → e.1.text.foldlM step r = deliver e.1.compile r)
    (ihv : ∀ e ∈ es, ∀ {r : Reading}, r.Awaits → e.2.text.foldlM step r = deliver e.2.compile r)
    (out : List Token) (parens : Nat) (entries : List (Token × Token)) (fs : List Frame) :
    (Written.textEntries es).foldlM step ⟨out, parens, .map entries .afterValue :: fs⟩ =
      .ok ⟨out, parens, .map (entries ++ Written.compileEntries es) .afterValue :: fs⟩ := by
  induction es generalizing entries with
  | nil =>
    simp only [Written.textEntries, Written.compileEntries, List.append_nil, List.foldlM_nil]
    rfl
  | cons e es ihes =>
    obtain ⟨k, v⟩ := e
    have he := foldlM_step_entry (ihk _ List.mem_cons_self) (ihv _ List.mem_cons_self) out parens
      entries .key (.inr rfl) fs
    have hsplit : Written.textEntries ((k, v) :: es) =
        .sym "," :: ((k.text ++ .sym ":" :: v.text) ++ Written.textEntries es) := by
      simp [Written.textEntries]
    have hcomma : step ⟨out, parens, .map entries .afterValue :: fs⟩ (.sym ",") =
        .ok ⟨out, parens, .map entries .key :: fs⟩ := by
      simp [Token.isSym]
    rw [hsplit, List.foldlM_cons, hcomma, ok_bind, List.foldlM_append, he, ok_bind,
      ihes (fun f hf => ihk f (List.mem_cons_of_mem _ hf))
        (fun f hf => ihv f (List.mem_cons_of_mem _ hf))]
    simp [Written.compileEntries]

theorem deliver_tail {i : Token} (h : fitsKind i .list = true) (out : List Token) (parens : Nat)
    (items : List Token) (fs : List Frame) :
    deliver i ⟨out, parens, .list items .tail :: fs⟩ =
      .ok ⟨out, parens, .list items (.afterTail i) :: fs⟩ := by
  simp [deliver, h]

theorem deliver_rest {i : Token} (h : fitsKind i .map = true) (out : List Token) (parens : Nat)
    (es : List (Token × Token)) (fs : List Frame) :
    deliver i ⟨out, parens, .map es .rest :: fs⟩ =
      .ok ⟨out, parens, .map es (.afterRest i) :: fs⟩ := by
  simp [deliver, h]

theorem finishMap_nil : finishMap [] (.map []) = .map [] := rfl

section Closing

variable (out : List Token) (parens : Nat) (fs : List Frame)

theorem step_close_empty_list :
    step ⟨out, parens, .list [] .start :: fs⟩ (.sym "]") = deliver (.list []) ⟨out, parens, fs⟩ := by
  simp [Token.isSym]

theorem step_close_list (items : List Token) :
    step ⟨out, parens, .list items .afterItem :: fs⟩ (.sym "]") =
      deliver (.list items) ⟨out, parens, fs⟩ := by
  simp [Token.isSym]

theorem step_dots_list (items : List Token) :
    step ⟨out, parens, .list items .afterItem :: fs⟩ (.sym "...") =
      .ok ⟨out, parens, .list items .tail :: fs⟩ := by
  simp [Token.isSym]

theorem step_close_tail (items : List Token) (t : Token) :
    step ⟨out, parens, .list items (.afterTail t) :: fs⟩ (.sym "]") =
      deliver (items.foldr .listCap t) ⟨out, parens, fs⟩ := by
  simp [Token.isSym]

theorem step_close_empty_map :
    step ⟨out, parens, .map [] .start :: fs⟩ (.sym "\x7d") = deliver (.map []) ⟨out, parens, fs⟩ := by
  simp [Token.isSym]

theorem step_close_map (es : List (Token × Token)) :
    step ⟨out, parens, .map es .afterValue :: fs⟩ (.sym "\x7d") =
      deliver (finishMap es (.map [])) ⟨out, parens, fs⟩ := by
  simp [Token.isSym]

theorem step_dots_map (es : List (Token × Token)) :
    step ⟨out, parens, .map es .afterValue :: fs⟩ (.sym "...") =
      .ok ⟨out, parens, .map es .rest :: fs⟩ := by
  simp [Token.isSym]

theorem step_close_rest (es : List (Token × Token)) (r : Token) :
    step ⟨out, parens, .map es (.afterRest r) :: fs⟩ (.sym "\x7d") =
      deliver (finishMap es r) ⟨out, parens, fs⟩ := by
  simp [Token.isSym]

end Closing

end Steps

/-- Where an item goes, the reader reads the text of a written
pattern into the item the pattern compiles to, and hands it over. -/
theorem foldlM_step_text {P : Written} (hP : P.Pattern) :
    ∀ {r : Reading}, r.Awaits → P.text.foldlM step r = deliver P.compile r := by
  induction hP with
  | placeholder h =>
    intro r hr
    simp [Written.text, Written.compile, step_word hr (.inl ⟨_, rfl, h⟩)]
  | literal h =>
    intro r hr
    simp [Written.text, Written.compile, step_word hr (.inr h)]
  | @list xs h ih =>
    intro r hr
    obtain ⟨out, parens, stack⟩ := r
    rcases xs with _ | ⟨x, xs⟩
    · -- `[]`: the bracket closes at once
      rw [show Written.text (.list []) = [.sym "[", .sym "]"] from rfl, List.foldlM_cons,
        step_open_list hr, ok_bind, List.foldlM_cons, step_close_empty_list]
      simp only [List.foldlM_nil, bind_pure]
      rfl
    · have hx := ih x List.mem_cons_self (r := ⟨out, parens, .list [] .start :: stack⟩) trivial
      rw [deliver_list_item _ _ _ _ _ (.inl rfl), List.nil_append] at hx
      rw [show Written.text (.list (x :: xs)) =
          .sym "[" :: (x.text ++ (Written.textItems xs ++ [.sym "]"])) by
            simp [Written.text, Written.textItems],
        List.foldlM_cons, step_open_list hr, ok_bind, List.foldlM_append, hx, ok_bind,
        List.foldlM_append, foldlM_step_textItems (fun y hy => ih y (List.mem_cons_of_mem _ hy)),
        ok_bind, List.foldlM_cons, step_close_list]
      simp only [List.foldlM_nil, bind_pure]
      rfl
  | @listTail x xs t h ht hfit ih iht =>
    intro r hr
    obtain ⟨out, parens, stack⟩ := r
    have hx := ih x List.mem_cons_self (r := ⟨out, parens, .list [] .start :: stack⟩) trivial
    rw [deliver_list_item _ _ _ _ _ (.inl rfl), List.nil_append] at hx
    have htail := iht (r := ⟨out, parens, .list ([x.compile] ++ Written.compileItems xs)
      .tail :: stack⟩) trivial
    rw [deliver_tail hfit] at htail
    rw [show Written.text (.listTail (x :: xs) t) = .sym "[" :: (x.text ++
          (Written.textItems xs ++ (.sym "..." :: (t.text ++ [.sym "]"])))) by
            simp [Written.text, Written.textItems],
      List.foldlM_cons, step_open_list hr, ok_bind, List.foldlM_append, hx, ok_bind,
      List.foldlM_append, foldlM_step_textItems (fun y hy => ih y (List.mem_cons_of_mem _ hy)),
      ok_bind, List.foldlM_cons, step_dots_list, ok_bind, List.foldlM_append, htail, ok_bind,
      List.foldlM_cons, step_close_tail]
    simp only [List.foldlM_nil, bind_pure]
    rfl
  | @map es hk hv ihk ihv =>
    intro r hr
    obtain ⟨out, parens, stack⟩ := r
    rcases es with _ | ⟨⟨k, v⟩, es⟩
    · -- `{}`: the brace closes at once
      rw [show Written.text (.map []) = [.sym "\x7b", .sym "\x7d"] from rfl, List.foldlM_cons,
        step_open_map hr, ok_bind, List.foldlM_cons, step_close_empty_map]
      simp only [List.foldlM_nil, bind_pure]
      rfl
    · have he := foldlM_step_entry (ihk _ List.mem_cons_self) (ihv _ List.mem_cons_self) out parens
        [] .start (.inl rfl) stack
      rw [List.nil_append] at he
      rw [show Written.text (.map ((k, v) :: es)) = .sym "\x7b" ::
          ((k.text ++ .sym ":" :: v.text) ++ (Written.textEntries es ++ [.sym "\x7d"])) by
            simp [Written.text, Written.textEntries],
        List.foldlM_cons, step_open_map hr, ok_bind, List.foldlM_append, he, ok_bind,
        List.foldlM_append, foldlM_step_textEntries (fun f hf => ihk f (List.mem_cons_of_mem _ hf))
          (fun f hf => ihv f (List.mem_cons_of_mem _ hf)), ok_bind, List.foldlM_cons,
        step_close_map]
      simp only [List.foldlM_nil, bind_pure]
      rfl
  | @mapRest e es r hk hv hr hfit ihk ihv ihr =>
    intro rd hrd
    obtain ⟨out, parens, stack⟩ := rd
    obtain ⟨k, v⟩ := e
    have he := foldlM_step_entry (ihk _ List.mem_cons_self) (ihv _ List.mem_cons_self) out parens
      [] .start (.inl rfl) stack
    rw [List.nil_append] at he
    have hrest := ihr (r := ⟨out, parens, .map ([(k.compile, v.compile)] ++
      Written.compileEntries es) .rest :: stack⟩) trivial
    rw [deliver_rest hfit] at hrest
    rw [show Written.text (.mapRest ((k, v) :: es) r) = .sym "\x7b" ::
        ((k.text ++ .sym ":" :: v.text) ++ (Written.textEntries es ++
          (.sym "..." :: (r.text ++ [.sym "\x7d"])))) by
          simp [Written.text, Written.textEntries],
      List.foldlM_cons, step_open_map hrd, ok_bind, List.foldlM_append, he, ok_bind,
      List.foldlM_append, foldlM_step_textEntries (fun f hf => ihk f (List.mem_cons_of_mem _ hf))
        (fun f hf => ihv f (List.mem_cons_of_mem _ hf)), ok_bind, List.foldlM_cons, step_dots_map,
      ok_bind, List.foldlM_append, hrest, ok_bind, List.foldlM_cons, step_close_rest]
    simp only [List.foldlM_nil, bind_pure]
    rfl

/-! ### Placeholder names -/

theorem isPlaceholderName_of_isStructure {s : String} (h : (Token.sym s).isStructure = true) :
    isPlaceholderName s = false := by
  simp only [Token.isStructure, List.contains_cons, List.contains_nil, Bool.or_false,
    Bool.or_eq_true, beq_iff_eq] at h
  rcases h with rfl | rfl | rfl | rfl | rfl | rfl | rfl <;> decide +kernel

theorem isBracket_of_isPlaceholderName {s : String} (h : isPlaceholderName s = true) :
    (Token.sym s).isBracket = false := by
  cases hb : (Token.sym s).isBracket
  · rfl
  · simp only [Token.isBracket, Tokens.opens, Tokens.closes, Token.isSym, Bool.or_eq_true,
      beq_iff_eq] at hb
    rcases hb with ((rfl | rfl) | rfl) | (rfl | rfl) | rfl <;> exact absurd h (by decide +kernel)

theorem varNames_eq_nil {t : Token} (h : t.hasPlaceholder = false) : varNames t = [] := by
  rw [Token.varNames_eq_map_fst, Token.vars_eq_nil h, List.map_nil]

theorem mem_varNames_foldr_listCap {s : String} {items : List Token} {tail : Token} :
    s ∈ varNames (items.foldr (fun h acc => .listCap h acc) tail) ↔
      (∃ p ∈ items, s ∈ varNames p) ∨ s ∈ varNames tail := by
  induction items with
  | nil => simp
  | cons p items ih => simp [varNames, ih, or_assoc]

theorem mem_varNames_foldr_mapCap {s : String} {es : List (Token × Token)} {rest : Token} :
    s ∈ varNames (es.foldr (fun (k, v) acc => .mapCap k v acc) rest) ↔
      (∃ e ∈ es, s ∈ varNames e.1 ∨ s ∈ varNames e.2) ∨ s ∈ varNames rest := by
  induction es with
  | nil => simp
  | cons e es ih => simp [varNames, ih, or_assoc]

theorem mem_varNames_finishMap {es : List (Token × Token)} {rest : Token} {s : String}
    (h : (∃ e ∈ es, s ∈ varNames e.1 ∨ s ∈ varNames e.2) ∨ s ∈ varNames rest) :
    s ∈ varNames (finishMap es rest) := by
  unfold finishMap
  dsimp only
  split
  · rename_i _ rs hlit
    simp only [Bool.and_eq_true, Bool.not_eq_true', List.all_eq_true] at hlit
    exfalso
    rcases h with ⟨e, he, hk | hv⟩ | hr
    · simp [varNames_eq_nil (hlit.2 e he).1] at hk
    · simp [varNames_eq_nil (hlit.2 e he).2] at hv
    · simp [varNames_eq_nil hlit.1] at hr
  · exact mem_varNames_foldr_mapCap.2 h

end Compiler

namespace Written

theorem compileItems_eq_map (xs : List Written) : compileItems xs = xs.map compile := by
  induction xs with
  | nil => rfl
  | cons x xs ih => simp [compileItems, ih]

theorem compileEntries_eq_map (es : List (Written × Written)) :
    compileEntries es = es.map fun e => (e.1.compile, e.2.compile) := by
  induction es with
  | nil => rfl
  | cons e es ih => simp [compileEntries, ih]

namespace Pattern

theorem mem_text {P : Written} (hP : P.Pattern) {t : Token} (ht : t ∈ P.text) :
    t.isStructure = true ∨ (∃ s, t = .sym s ∧ Compiler.isPlaceholderName s = true) ∨
      t.Literal := by
  induction hP with
  | placeholder h =>
    obtain rfl := List.mem_singleton.1 ht
    exact .inr (.inl ⟨_, rfl, h⟩)
  | literal h =>
    obtain rfl := List.mem_singleton.1 ht
    exact .inr (.inr h)
  | list h ih =>
    rcases mem_text_list ht with hs | ⟨x, hx, hx'⟩
    exacts [.inl hs, ih x hx hx']
  | listTail h htail hfit ih iht =>
    rcases mem_text_listTail ht with hs | ⟨x, hx, hx'⟩ | hr
    exacts [.inl hs, ih x hx hx', iht hr]
  | map hk hv ihk ihv =>
    rcases mem_text_map ht with hs | ⟨e, he, he' | he'⟩
    exacts [.inl hs, ihk e he he', ihv e he he']
  | mapRest hk hv hr hfit ihk ihv ihr =>
    rcases mem_text_mapRest ht with hs | ⟨e, he, he' | he'⟩ | hr'
    exacts [.inl hs, ihk e he he', ihv e he he', ihr hr']

theorem mem_varNames_compile {P : Written} (hP : P.Pattern) {s : String}
    (hs : Token.sym s ∈ P.text) (hname : Compiler.isPlaceholderName s = true) :
    s ∈ Compiler.varNames P.compile := by
  -- the symbols of the bracket language are no placeholder names, so `s` is a word of a part
  have hword : ∀ {t : Token}, t.isStructure = true → t ≠ .sym s := by
    rintro t ht rfl
    simp [Compiler.isPlaceholderName_of_isStructure ht] at hname
  induction hP with
  | placeholder h =>
    obtain ⟨⟩ := List.mem_singleton.1 hs
    simp [compile, Compiler.placeholder, h, Compiler.varNames]
  | literal h =>
    obtain rfl := List.mem_singleton.1 hs
    rcases h with ⟨n, hn, -⟩ | ⟨u, hu⟩ | ⟨b, hb⟩
    · simp at hn
    · simp at hu
    · simp at hb
  | @list xs h ih =>
    rcases mem_text_list hs with hst | ⟨x, hx, hx'⟩
    · exact absurd rfl (hword hst)
    · simp only [compile, Compiler.varNames, Token.mem_varNamesItems, compileItems_eq_map,
        List.mem_map, exists_exists_and_eq_and]
      exact ⟨x, hx, ih x hx hx'⟩
  | @listTail x xs t h htail hfit ih iht =>
    simp only [compile, Compiler.mem_varNames_foldr_listCap, compileItems_eq_map, List.mem_map,
      exists_exists_and_eq_and]
    rcases mem_text_listTail hs with hst | ⟨y, hy, hy'⟩ | hr
    · exact absurd rfl (hword hst)
    · exact .inl ⟨y, hy, ih y hy hy'⟩
    · exact .inr (iht hr)
  | @map es hk hv ihk ihv =>
    refine Compiler.mem_varNames_finishMap (.inl ?_)
    simp only [compileEntries_eq_map, List.mem_map, exists_exists_and_eq_and]
    rcases mem_text_map hs with hst | ⟨e, he, he' | he'⟩
    · exact absurd rfl (hword hst)
    · exact ⟨e, he, .inl (ihk e he he')⟩
    · exact ⟨e, he, .inr (ihv e he he')⟩
  | @mapRest e es r hk hv hr hfit ihk ihv ihr =>
    refine Compiler.mem_varNames_finishMap ?_
    simp only [compileEntries_eq_map, List.mem_map, exists_exists_and_eq_and]
    rcases mem_text_mapRest hs with hst | ⟨f, hf, hf' | hf'⟩ | hr'
    · exact absurd rfl (hword hst)
    · exact .inl ⟨f, hf, .inl (ihk f hf hf')⟩
    · exact .inl ⟨f, hf, .inr (ihv f hf hf')⟩
    · exact .inr (ihr hr')

theorem awaitStep_open_list (aw : List String) :
    Tokens.awaitStep aw (.sym "[") = some ("]" :: aw) := rfl

theorem awaitStep_close_list (aw : List String) :
    Tokens.awaitStep ("]" :: aw) (.sym "]") = some aw := rfl

theorem awaitStep_open_map (aw : List String) :
    Tokens.awaitStep aw (.sym "\x7b") = some ("\x7d" :: aw) := rfl

theorem awaitStep_close_map (aw : List String) :
    Tokens.awaitStep ("\x7d" :: aw) (.sym "\x7d") = some aw := rfl

theorem awaitStep_dots (aw : List String) : Tokens.awaitStep aw (.sym "...") = some aw := rfl

theorem awaiting_text {P : Written} (hP : P.Pattern) :
    ∀ aw, Tokens.awaiting aw P.text = some aw := by
  -- an item's text keeps the stack; a list or map pattern pushes its closer and pops it again
  have hitems : ∀ {xs : List Written}, (∀ x ∈ xs, ∀ aw, Tokens.awaiting aw x.text = some aw) →
      ∀ aw, Tokens.awaiting aw (textItems xs) = some aw := by
    intro xs ih
    induction xs with
    | nil => intro aw; rfl
    | cons x xs ihxs =>
      intro aw
      rw [textItems_cons, Tokens.awaiting_cons_of_not_bracket Builtin.isBracket_sym_comma,
        Tokens.awaiting_append, ih x List.mem_cons_self, Option.bind_some,
        ihxs fun y hy => ih y (List.mem_cons_of_mem _ hy)]
  have hentries : ∀ {es : List (Written × Written)},
      (∀ e ∈ es, ∀ aw, Tokens.awaiting aw e.1.text = some aw) →
      (∀ e ∈ es, ∀ aw, Tokens.awaiting aw e.2.text = some aw) →
      ∀ aw, Tokens.awaiting aw (textEntries es) = some aw := by
    intro es ihk ihv
    induction es with
    | nil => intro aw; rfl
    | cons e es ihes =>
      intro aw
      obtain ⟨k, v⟩ := e
      rw [textEntries_cons, Tokens.awaiting_cons_of_not_bracket Builtin.isBracket_sym_comma,
        Tokens.awaiting_append, ihk _ List.mem_cons_self, Option.bind_some,
        Tokens.awaiting_cons_of_not_bracket Builtin.isBracket_sym_colon, Tokens.awaiting_append,
        ihv _ List.mem_cons_self, Option.bind_some,
        ihes (fun f hf => ihk f (List.mem_cons_of_mem _ hf))
          (fun f hf => ihv f (List.mem_cons_of_mem _ hf))]
  -- the first comma of the items' text is dropped, and it is no bracket
  have htail : ∀ (ts : List Token) aw, ts.head? = some (.sym ",") →
      Tokens.awaiting aw ts.tail = Tokens.awaiting aw ts := by
    intro ts aw hhead
    rcases ts with _ | ⟨t, ts⟩
    · rfl
    · obtain rfl : t = .sym "," := by simpa using hhead
      rw [List.tail_cons, Tokens.awaiting_cons_of_not_bracket Builtin.isBracket_sym_comma]
  have hheadItems : ∀ xs : List Written, xs ≠ [] → (textItems xs).head? = some (.sym ",") := by
    rintro (_ | ⟨x, xs⟩) hne
    exacts [absurd rfl hne, rfl]
  have hheadEntries : ∀ es : List (Written × Written), es ≠ [] →
      (textEntries es).head? = some (.sym ",") := by
    rintro (_ | ⟨⟨k, v⟩, es⟩) hne
    exacts [absurd rfl hne, rfl]
  induction hP with
  | placeholder h =>
    intro aw
    exact Tokens.awaiting_cons_of_not_bracket (Compiler.isBracket_of_isPlaceholderName h) aw []
  | literal h =>
    intro aw
    refine Tokens.awaiting_cons_of_not_bracket (Token.isBracket_of_ne_sym ?_) aw []
    rintro s rfl
    rcases h with ⟨n, hn, -⟩ | ⟨u, hu⟩ | ⟨b, hb⟩
    · simp at hn
    · simp at hu
    · simp at hb
  | @list xs h ih =>
    intro aw
    rcases xs with _ | ⟨x, xs⟩
    · rfl
    · have hin := hitems ih ("]" :: aw)
      rw [← htail _ _ (hheadItems _ (List.cons_ne_nil x xs))] at hin
      simp only [text, Tokens.awaiting_append, Tokens.awaiting_cons, awaitStep_open_list,
        Option.bind_some, hin, awaitStep_close_list, Tokens.awaiting_nil]
  | @listTail x xs t h ht hfit ih iht =>
    intro aw
    have hin := hitems ih ("]" :: aw)
    rw [← htail _ _ (hheadItems _ (List.cons_ne_nil x xs))] at hin
    simp only [text, Tokens.awaiting_append, Tokens.awaiting_cons, awaitStep_open_list,
      Option.bind_some, hin, awaitStep_dots, iht, awaitStep_close_list, Tokens.awaiting_nil]
  | @map es hk hv ihk ihv =>
    intro aw
    rcases es with _ | ⟨e, es⟩
    · rfl
    · have hin := hentries ihk ihv ("\x7d" :: aw)
      rw [← htail _ _ (hheadEntries _ (List.cons_ne_nil e es))] at hin
      simp only [text, Tokens.awaiting_append, Tokens.awaiting_cons, awaitStep_open_map,
        Option.bind_some, hin, awaitStep_close_map, Tokens.awaiting_nil]
  | @mapRest e es r hk hv hr hfit ihk ihv ihr =>
    intro aw
    have hin := hentries ihk ihv ("\x7d" :: aw)
    rw [← htail _ _ (hheadEntries _ (List.cons_ne_nil e es))] at hin
    simp only [text, Tokens.awaiting_append, Tokens.awaiting_cons, awaitStep_open_map,
      Option.bind_some, hin, awaitStep_dots, ihr, awaitStep_close_map, Tokens.awaiting_nil]

theorem countP_text {P : Written} (hP : P.Pattern) :
    P.text.countP (fun t => t.isSym "[" || t.isSym "\x7b") = P.brackets := by
  -- a word opens nothing: a placeholder name is no bracket, and a literal no symbol
  have hword : ∀ {t : Token}, ((∃ s, t = .sym s ∧ Compiler.isPlaceholderName s = true) ∨
      t.Literal) → (t.isSym "[" || t.isSym "\x7b") = false := by
    rintro t (⟨s, rfl, hs⟩ | ⟨n, rfl, -⟩ | ⟨u, rfl⟩ | ⟨b, rfl⟩)
    · have hb := Compiler.isBracket_of_isPlaceholderName hs
      simp only [Token.isBracket, Tokens.opens, Tokens.closes, Bool.or_eq_false_iff] at hb
      simp [hb.1.1.2, hb.1.2]
    all_goals rfl
  have hitems : ∀ {xs : List Written},
      (∀ x ∈ xs, x.text.countP (fun t => t.isSym "[" || t.isSym "\x7b") = x.brackets) →
      (textItems xs).countP (fun t => t.isSym "[" || t.isSym "\x7b") = bracketsItems xs := by
    intro xs ih
    induction xs with
    | nil => rfl
    | cons x xs ihxs =>
      rw [textItems_cons, List.countP_cons, List.countP_append, ih x List.mem_cons_self,
        ihxs fun y hy => ih y (List.mem_cons_of_mem _ hy)]
      simp [bracketsItems, Token.isSym]
  have hentries : ∀ {es : List (Written × Written)},
      (∀ e ∈ es, e.1.text.countP (fun t => t.isSym "[" || t.isSym "\x7b") = e.1.brackets) →
      (∀ e ∈ es, e.2.text.countP (fun t => t.isSym "[" || t.isSym "\x7b") = e.2.brackets) →
      (textEntries es).countP (fun t => t.isSym "[" || t.isSym "\x7b") = bracketsEntries es := by
    intro es ihk ihv
    induction es with
    | nil => rfl
    | cons e es ihes =>
      obtain ⟨k, v⟩ := e
      rw [textEntries_cons, List.countP_cons, List.countP_append, List.countP_cons,
        List.countP_append, ihk _ List.mem_cons_self, ihv _ List.mem_cons_self,
        ihes (fun f hf => ihk f (List.mem_cons_of_mem _ hf))
          (fun f hf => ihv f (List.mem_cons_of_mem _ hf))]
      simp [bracketsEntries, Token.isSym]
      omega
  -- the first comma of the items' text, which the text drops, opens nothing either
  have hdrop : ∀ {ts : List Token}, ts = [] ∨ ts.head? = some (.sym ",") →
      ts.tail.countP (fun t => t.isSym "[" || t.isSym "\x7b") =
        ts.countP (fun t => t.isSym "[" || t.isSym "\x7b") := by
    rintro (_ | ⟨t, ts⟩) h
    · rfl
    · obtain rfl : t = .sym "," := by simpa using h
      simp [Token.isSym]
  have hItemsHead : ∀ xs : List Written, textItems xs = [] ∨
      (textItems xs).head? = some (.sym ",") := by
    rintro (_ | ⟨x, xs⟩)
    exacts [.inl rfl, .inr rfl]
  have hEntriesHead : ∀ es : List (Written × Written), textEntries es = [] ∨
      (textEntries es).head? = some (.sym ",") := by
    rintro (_ | ⟨⟨k, v⟩, es⟩)
    exacts [.inl rfl, .inr rfl]
  induction hP with
  | placeholder h => simp [text, brackets, hword (.inl ⟨_, rfl, h⟩)]
  | literal h => simp [text, brackets, hword (.inr h)]
  | @list xs h ih =>
    simp only [text, brackets, List.countP_append, List.countP_cons, hdrop (hItemsHead xs),
      hitems ih]
    simp [Token.isSym]
  | @listTail x xs t h ht hfit ih iht =>
    simp only [text, brackets, List.countP_append, List.countP_cons,
      hdrop (hItemsHead (x :: xs)), hitems ih, iht]
    simp [Token.isSym]
    omega
  | @map es hk hv ihk ihv =>
    simp only [text, brackets, List.countP_append, List.countP_cons, hdrop (hEntriesHead es),
      hentries ihk ihv]
    simp [Token.isSym]
  | @mapRest e es r hk hv hr hfit ihk ihv ihr =>
    simp only [text, brackets, List.countP_append, List.countP_cons,
      hdrop (hEntriesHead (e :: es)), hentries ihk ihv, ihr]
    simp [Token.isSym]
    omega

end Pattern

theorem text_ne_nil (P : Written) : P.text ≠ [] := by
  cases P <;> simp [text]

end Written

namespace Compiler

theorem replacement_cons {bound : List String} {t : Token} {aw aw₁ : List String}
    (hstep : Tokens.awaitStep aw t = some aw₁)
    (hbound : ∀ s, t = .sym s → isPlaceholderName s = true → s ∈ bound) (ts : List Token) :
    replacement bound (t :: ts) aw = (placeholder t :: ·) <$> replacement bound ts aw₁ := by
  conv_lhs => unfold replacement
  split
  · rename_i s
    split
    · -- a placeholder word, bound by the pattern, becomes a variable
      rename_i hname
      rw [Tokens.awaitStep_of_not_bracket (isBracket_of_isPlaceholderName hname)] at hstep
      cases hstep
      simp [placeholder, hname, hbound s rfl hname]
    · rename_i hname
      have hph : placeholder (.sym s) = .sym s := by simp [placeholder, hname]
      rw [hph]
      split
      · -- an opener pushes its closer
        rename_i c hc
        have hopen : Tokens.awaitStep aw (.sym s) = some (c :: aw) := by
          simp [Tokens.awaitStep, Tokens.closerOf?, Token.symName?, hc]
        rw [hopen] at hstep
        cases hstep
        rfl
      · rename_i hc
        have hco : Tokens.closerOf? (.sym s) = none := by
          simp [Tokens.closerOf?, Token.symName?, hc]
        split
        · -- a closer pops the closer on top, which it must be
          rename_i hcl
          have hcl' : Tokens.closes (.sym s) = true := by
            simpa [Tokens.closes, Token.isSym] using hcl
          split
          · rename_i c rest
            split
            · rename_i hcs
              have hpop : Tokens.awaitStep (c :: rest) (.sym s) = some rest := by
                simp only [beq_iff_eq] at hcs
                simp [Tokens.awaitStep, hco, hcl', Token.isSym, hcs]
              rw [hpop] at hstep
              cases hstep
              rfl
            · rename_i hcs
              simp only [beq_iff_eq] at hcs
              simp [Tokens.awaitStep, hco, hcl', Token.isSym, Ne.symm hcs] at hstep
          · simp [Tokens.awaitStep, hco, hcl'] at hstep
        · rename_i hcl
          have hcl' : Tokens.closes (.sym s) = false := by
            simpa [Tokens.closes, Token.isSym] using hcl
          have hkeep : Tokens.awaitStep aw (.sym s) = some aw := by
            simp [Tokens.awaitStep, hco, hcl']
          rw [hkeep] at hstep
          cases hstep
          rfl
  · rename_i hsym
    rw [Tokens.awaitStep_of_not_bracket (Token.isBracket_of_ne_sym hsym)] at hstep
    cases hstep
    have hph : placeholder t = t := by
      cases t <;> simp_all [placeholder]
    rw [hph]

/-- The replacement reader keeps a stretch of tokens whose brackets it can follow, each in its
placeholder form, when the pattern binds every placeholder word of the stretch. -/
theorem replacement_append {bound : List String} {ts : List Token} {aw aw' : List String}
    (hts : Tokens.awaiting aw ts = some aw')
    (hbound : ∀ s, Token.sym s ∈ ts → isPlaceholderName s = true → s ∈ bound) (rest : List Token) :
    replacement bound (ts ++ rest) aw = (ts.map placeholder ++ ·) <$> replacement bound rest aw' := by
  induction ts generalizing aw with
  | nil =>
    obtain rfl : aw = aw' := by simpa using hts
    simp
  | cons t ts ih =>
    rw [Tokens.awaiting_cons] at hts
    obtain ⟨aw₁, hstep, hrest⟩ := Option.bind_eq_some_iff.1 hts
    rw [List.cons_append,
      replacement_cons hstep (fun s hs hname => hbound s (hs ▸ List.mem_cons_self) hname),
      ih hrest (fun s hs hname => hbound s (List.mem_cons_of_mem _ hs) hname), Functor.map_map]
    rfl

/-- The template of a definition `f P` is the symbol `f` and the template token of `P`. -/
theorem template_text {P : Written} (hP : P.Pattern) :
    template (.sym "f" :: P.text) = .ok [.sym "f", P.compile] := by
  have hname : isPlaceholderName "f" = false := by decide +kernel
  have hf : step ⟨[], 0, []⟩ (.sym "f") = .ok ⟨[.sym "f"], 0, []⟩ := by
    simp [step, Token.isSym, placeholder, hname]
  have hP' := foldlM_step_text hP (r := ⟨[.sym "f"], 0, []⟩) trivial
  unfold template
  rw [List.foldlM_cons, hf, ok_bind, hP']
  rfl

end Compiler

namespace Rule

/-- The rule of a definition `f P = P` matches `f` and the template token of `P`, and
rewrites into the text of `P` with its placeholder words turned into variables. -/
theorem compile_text {P : Written} (hP : P.Pattern) :
    compile (.sym "f" :: P.text) P.text = .ok ⟨Tokens.render (.sym "f" :: P.text) ++ " = " ++
      Tokens.render P.text, [.sym "f", P.compile], [], .rewrite (P.text.map Compiler.placeholder)⟩ := by
  have hbound : ∀ s, Token.sym s ∈ P.text → Compiler.isPlaceholderName s = true →
      s ∈ Compiler.varNamesItems [.sym "f", P.compile] := fun s hs hname => by
    simp [Compiler.varNamesItems, Compiler.varNames, Written.Pattern.mem_varNames_compile hP hs hname]
  have hrepl : Compiler.replacement (Compiler.varNamesItems [.sym "f", P.compile]) P.text [] =
      .ok (P.text.map Compiler.placeholder) := by
    have h := Compiler.replacement_append (Written.Pattern.awaiting_text hP []) hbound []
    rw [List.append_nil] at h
    rw [h]
    simp [Compiler.replacement]
  have hne := Written.text_ne_nil P
  unfold compile
  simp only [List.isEmpty_cons, Bool.false_eq_true, if_false, List.isEmpty_iff, hne,
    Compiler.template_text hP, hrepl]

end Rule

end Reckon
