import Reckon.Proofs.Pattern.Enumeration
import Reckon.Proofs.Rule.Index
import Reckon.Reduction.Basic

/-!
# One rule at one position

A pass of a reduction tries, at each position from the left, the candidate rules in
registration order. `Library.attempt` is what one rule does at one position: nothing unless its
template has the shape of the workspace there and no symbol around the span forbids it, and
otherwise what the rule does when it fires. A pass is the first attempt that succeeds
(`Library.firing?_eq`).

Everything a rule looks at when it is tried at `pos` lies in the token before `pos` and the
tokens from `pos` on. The lemmas here say so for the shape screen, the eligibility check and
template matching, by writing the workspace as `pre ++ ws` with the position at `pre.length`.
-/

namespace Reckon

@[simp] theorem Token.isSym_eq_true {t : Token} {s : String} : t.isSym s = true ↔ t = .sym s := by
  cases t <;> simp [Token.isSym]

namespace Pattern

theorem matchOne_sym (s : String) (val : Token) (binds : Bindings) :
    matchOne (.sym s) val binds = if val.isSym s then [binds] else [] := by
  rw [matchOne_of_literal (by simp) (by simp) (by simp) (by simp)]
  cases val with
  | sym t =>
    rw [Token.equal]
    simp only [Token.isSym]
    by_cases h : s = t
    · subst h
      rfl
    · have hst : (s == t) = false := beq_false_of_ne h
      have hts : (t == s) = false := beq_false_of_ne (Ne.symm h)
      simp only [hst, hts, Bool.false_eq_true, if_false]
  | _ => rw [Token.equal.eq_def]; rfl

theorem matchOne_var_fresh (name : String) (cat : Kind) (val : Token) (binds : Bindings)
    (hfresh : binds.lookup name = none) :
    matchOne (.var name cat) val binds =
      if Token.accepts cat val then [binds ++ [(name, val)]] else [] := by
  rw [matchOne_var, hfresh]
  cases Token.accepts cat val <;> rfl

end Pattern

namespace Template

theorem firstMatch_append (tmpl pre ws : List Token) :
    firstMatch tmpl (pre ++ ws) pre.length = firstMatch tmpl ws 0 := by
  simp only [firstMatch_eq_head, allMatches, List.length_append, Int.toNat_natCast,
    List.drop_left, Int.toNat_zero, List.drop_zero, Nat.zero_add]
  congr 2
  have : ¬ ((pre.length : Int) < 0) := by omega
  simp [this]

theorem firstMatch_zero {tmpl ws : List Token} (hne : tmpl ≠ []) (hlen : tmpl.length ≤ ws.length) :
    firstMatch tmpl ws 0 = (Pattern.matchAll (tmpl.zip ws) []).head? := by
  have hempty : tmpl.isEmpty = false := by
    cases tmpl with
    | nil => exact absurd rfl hne
    | cons => rfl
  have hshort : ¬ ws.length < tmpl.length := by omega
  simp [firstMatch_eq_head, allMatches, hempty, hshort]

end Template

namespace Tokens

theorem splice_append (pre ws repl : List Token) (k : Nat) :
    splice (pre ++ ws) pre.length (pre.length + k) repl = pre ++ repl ++ ws.drop k := by
  simp [splice, List.drop_append]

end Tokens

namespace Library

/-- What the rule `r` does at `pos` in a pass: nothing unless it is a candidate there and
eligible, and otherwise its firing. -/
def attempt (r : Rule) (ws : List Token) (pos : Nat) : Option Firing :=
  if r.template.isEmpty || fits r.template ws pos then
    if r.eligible ws pos then r.fire ws pos else none
  else none

theorem findSome?_filter {α β : Type} (p : α → Bool) (f : α → Option β) (l : List α) :
    (l.filter p).findSome? f = l.findSome? fun a => if p a then f a else none := by
  induction l with
  | nil => rfl
  | cons a l ih =>
    by_cases hp : p a
    · simp only [List.filter_cons, hp, if_true, List.findSome?_cons, ih]
    · simp only [List.filter_cons, hp, Bool.false_eq_true, if_false, List.findSome?_cons, ih]

theorem firing?_eq (lib : Library) (ws : List Token) :
    lib.firing? ws =
      (List.range ws.length).findSome? fun pos => lib.rules.findSome? (attempt · ws pos) := by
  unfold firing?
  congr 1
  funext pos
  rw [candidates_eq_filter, findSome?_filter]
  rfl

/-- Whether the symbols `sub` forbid a rule next to the token `t`: `t` is one of them. -/
def blocks (sub : List String) : Option Token → Bool
  | some (.sym s) => sub.contains s
  | _ => false

theorem blocks_eq (sub : List String) (t : Option Token) :
    (t.map fun t => (t.symName?.map sub.contains).getD false).getD false = blocks sub t := by
  rcases t with _ | ⟨_ | _ | _ | s | _ | _ | _ | _ | _⟩ <;> rfl

theorem before_append (pre ws : List Token) {g : Option Token → Bool} (hg : g none = false) :
    (0 < pre.length ∧ g (pre ++ ws)[pre.length - 1]? = true) ↔ g pre.getLast? = true := by
  rcases List.eq_nil_or_concat pre with rfl | ⟨init, last, rfl⟩
  · simp [hg]
  · simp

theorem after_append (pre ws : List Token) (k : Nat) :
    (pre ++ ws)[pre.length + k]? = ws[k]? := by
  rw [List.getElem?_append_right (by omega), Nat.add_sub_cancel_left]

@[simp] theorem blocks_nil (t : Option Token) : blocks [] t = false := by
  rcases t with _ | ⟨_ | _ | _ | s | _ | _ | _ | _ | _⟩ <;> rfl

@[simp] theorem blocks_none (sub : List String) : blocks sub none = false := rfl

/-- Whether the template token `p` has the shape of the workspace token `t`. -/
def fitsToken (p t : Token) : Bool := (Segment.ofSubject t).contains (Segment.ofTemplate p)

@[simp] theorem fits_nil (ws : List Token) : fits [] ws 0 = true := by
  simp [fits]

@[simp] theorem fits_cons_nil (p : Token) (tmpl : List Token) : fits (p :: tmpl) [] 0 = false := by
  simp [fits]

@[simp] theorem fits_cons_cons (p t : Token) (tmpl ws : List Token) :
    fits (p :: tmpl) (t :: ws) 0 = (fitsToken p t && fits tmpl ws 0) := by
  simp only [fits, List.length_cons, Nat.add_zero, List.drop_zero, List.zip_cons_cons,
    List.all_cons, fitsToken]
  cases (Segment.ofSubject t).contains (Segment.ofTemplate p) <;> simp

@[simp] theorem fitsToken_sym (s : String) (t : Token) : fitsToken (.sym s) t = t.isSym s := by
  cases t with
  | sym s' =>
    by_cases h : s' = s
    · subst h
      simp [fitsToken, Segment.ofSubject, Segment.ofTemplate, Token.isSym]
    · simp [fitsToken, Segment.ofSubject, Segment.ofTemplate, Token.isSym, h, Ne.symm h]
  | _ => simp [fitsToken, Segment.ofSubject, Segment.ofTemplate, Token.isSym, Token.isValue,
    Token.kind]

theorem fitsToken_var (name : String) {cat : Kind} (hcat : cat ≠ .symbol) (t : Token) :
    fitsToken (.var name cat) t = Token.accepts cat t := by
  cases cat <;> cases t <;> simp_all [fitsToken, Segment.ofSubject, Segment.ofTemplate,
    Token.accepts, Token.isValue, Token.kind]

theorem fits_append (tmpl pre ws : List Token) :
    fits tmpl (pre ++ ws) pre.length = fits tmpl ws 0 := by
  simp only [fits, List.length_append, List.drop_left, List.drop_zero, Nat.add_zero]
  congr 1
  simp only [decide_eq_decide]
  omega

theorem eq_sym_of_contains {t : Token} {s : String}
    (h : (Segment.ofSubject t).contains (.sym s) = true) : t = .sym s := by
  cases t with
  | sym s' =>
    simp [Segment.ofSubject] at h
    rw [h]
  | _ =>
    simp [Segment.ofSubject] at h
    split at h <;> simp at h

theorem sym_mem_of_fits {tmpl ws : List Token} {s : String} (h : fits tmpl ws 0 = true)
    (hs : Token.sym s ∈ tmpl) : Token.sym s ∈ ws := by
  simp only [fits, Nat.add_zero, List.drop_zero, Bool.and_eq_true, decide_eq_true_eq,
    List.all_eq_true] at h
  obtain ⟨hlen, hall⟩ := h
  induction tmpl generalizing ws with
  | nil => simp at hs
  | cons p tmpl ih =>
    cases ws with
    | nil => simp at hlen
    | cons t ws =>
      simp only [List.zip_cons_cons, List.mem_cons, forall_eq_or_imp] at hall
      rcases List.mem_cons.1 hs with rfl | hs
      · rw [eq_sym_of_contains hall.1]
        exact List.mem_cons_self
      · simp only [List.length_cons] at hlen
        exact List.mem_cons_of_mem _ (ih hs (by omega) hall.2)

/-- The symbol a token is, as a list of at most one token. -/
def symToken : Option Token → List Token
  | some (.sym s) => [.sym s]
  | _ => []

theorem all_symToken (sub : List String) (t : Option Token) :
    (symToken t).all (fun t => !(t.symName?.map sub.contains).getD false) = !blocks sub t := by
  rcases t with _ | ⟨_ | _ | _ | s | _ | _ | _ | _ | _⟩ <;> simp [symToken, blocks, Token.symName?]

theorem enclosing_append (pre ws : List Token) (k : Nat) :
    Tokens.enclosing (pre ++ ws) (pre.length : Int) ((pre.length + k : Nat) : Int) =
      symToken pre.getLast? ++ symToken ws[k]? := by
  have hafter := after_append pre ws k
  simp only [Tokens.enclosing]
  congr 1
  · rcases List.eq_nil_or_concat pre with rfl | ⟨init, last, rfl⟩
    · rfl
    · have hlast : (init.concat last ++ ws)[((init.concat last).length - 1 : Int).toNat]? =
          some last := by
        simp
      rw [if_pos (by simp <;> omega), hlast, List.concat_eq_append, List.getLast?_concat]
      rcases last with _ | _ | _ | s | _ | _ | _ | _ | _ <;> rfl
  · rw [if_pos (by omega), Int.toNat_natCast, hafter]
    rcases ws[k]? with _ | ⟨_ | _ | _ | s | _ | _ | _ | _ | _⟩ <;> rfl

theorem eligible_append (r : Rule) (pre ws : List Token) (hlen : r.template.length ≤ ws.length) :
    r.eligible (pre ++ ws) pre.length =
      (!blocks r.subordinateTo pre.getLast? && !blocks r.subordinateTo ws[r.template.length]?) := by
  have hstop : min ((pre.length : Int) + r.template.length) ((pre ++ ws).length : Int) =
      ((pre.length + r.template.length : Nat) : Int) := by
    simp only [List.length_append]
    omega
  rw [Rule.eligible, hstop, enclosing_append, List.all_append, all_symToken, all_symToken]
  cases r.subordinateTo <;> simp

theorem attempt_eq_none_of_sym {r : Rule} {s : String} (hs : Token.sym s ∈ r.template)
    (pre ws : List Token) (hws : Token.sym s ∉ ws) : attempt r (pre ++ ws) pre.length = none := by
  have hne : r.template.isEmpty = false := by
    cases h : r.template with
    | nil => simp [h] at hs
    | cons => rfl
  have hfits : fits r.template (pre ++ ws) pre.length = false := by
    rw [fits_append]
    cases h : fits r.template ws 0
    · rfl
    · exact absurd (sym_mem_of_fits h hs) hws
  simp [attempt, hne, hfits]

end Library

end Reckon
