import Reckon.Proofs.Rule.Attempt

/-!
# The candidate screen

A pass tries at each position only the candidates there: the rules the template index offers,
which are the rules whose template has the shape of the workspace at that position
(`Library.candidates_eq_filter`). The reference it stands for is the plain scan
`Library.naiveFiring?`, which tries every rule of the library at every position with the same
eligibility check and the same firing.

The candidates are always the library's rules in registration order, each registration once. A
template token that matches a workspace token has that token's segment, unless it is a variable
of category `symbol`: it binds a symbol, but its segment is that of the kind `symbol`, which no
symbol carries (`Library.fits_of_firstMatch`). So every rule that matches at a position is a
candidate there, except a rule whose template holds such a variable, which the index never offers
where that variable lies over a symbol (`Library.candidates_ordered_complete`,
`Library.candidates_miss_symbol_var`).

Every built-in rule but two fires through a match of its own template. The list and map folds do
not: they look at the token after their position and never at their own opening bracket, so they
fire at a position that holds no bracket at all, and only the screen stops them there. For a
library of built-in rules and of rewrite rules without symbol variables, the two scans therefore
agree on a workspace exactly when the plain scan's firing is not a fold away from its bracket
(`Library.firing?_eq_naiveFiring?_iff`). On `a ]` the plain scan folds `]` into the empty list,
and the pass does nothing.
-/

namespace Reckon

namespace Library

/-! ### Shape of a match -/

theorem contains_kind (t : Token) {k : Kind} (hk : k ≠ .symbol) :
    (Segment.ofSubject t).contains (.kind k) = (t.kind == k) := by
  cases t <;> cases k <;> simp_all [Segment.ofSubject, Token.isValue, Token.kind]

theorem kind_eq_of_equal {a b : Token} (h : a.equal b = true) : a.kind = b.kind := by
  cases a <;> cases b <;> first | rfl | (rw [Token.equal.eq_def] at h; simp at h)

theorem fitsToken_of_matchOne {pat val : Token} {binds : Bindings}
    (hpat : ∀ n, pat ≠ .var n .symbol) (h : Pattern.matchOne pat val binds ≠ []) :
    fitsToken pat val = true := by
  cases pat with
  | var name cat =>
    have hcat : cat ≠ .symbol := fun hc => hpat name (hc ▸ rfl)
    rw [fitsToken_var name hcat]
    by_contra hacc
    simp [Pattern.matchOne_var, hacc] at h
  | listCap hd tl =>
    cases val with
    | list xs => simp [fitsToken, Segment.ofSubject, Segment.ofTemplate, Token.isValue, Token.kind]
    | _ => exact absurd (Pattern.matchOne_listCap_of (by simp) binds) h
  | mapCap k v r =>
    cases val with
    | map es => simp [fitsToken, Segment.ofSubject, Segment.ofTemplate, Token.isValue, Token.kind]
    | _ => exact absurd (Pattern.matchOne_mapCap_of (by simp) binds) h
  | list ps =>
    have hval : val.kind = .list := by
      rw [Pattern.matchOne_list] at h
      split at h
      · split at h
        · exact (kind_eq_of_equal (by assumption)).symm
        · exact absurd rfl h
      · split at h
        · rfl
        · exact absurd rfl h
    show (Segment.ofSubject val).contains (.kind .list) = true
    rw [contains_kind val (by decide), hval]
    rfl
  | sym s =>
    rw [fitsToken_sym]
    rw [Pattern.matchOne_sym] at h
    by_contra hs
    simp [hs] at h
  | num _ | text _ | bool _ | map _ =>
    rw [Pattern.matchOne_of_literal (by simp) (by simp) (by simp) (by simp)] at h
    split at h
    · next heq =>
      simp only [fitsToken, Segment.ofTemplate]
      rw [contains_kind val (by simp [Token.kind]), ← kind_eq_of_equal heq]
      simp
    · exact absurd rfl h

theorem fits_of_matchAll {tmpl ws : List Token} {binds : Bindings}
    (htmpl : ∀ n, .var n .symbol ∉ tmpl) (hlen : tmpl.length ≤ ws.length)
    (h : Pattern.matchAll (tmpl.zip ws) binds ≠ []) : fits tmpl ws 0 = true := by
  induction tmpl generalizing ws binds with
  | nil => simp
  | cons p tmpl ih =>
    cases ws with
    | nil => simp at hlen
    | cons t ws =>
      rw [List.zip_cons_cons, Pattern.matchAll_cons] at h
      obtain ⟨b, hb, hrest⟩ :
          ∃ b ∈ Pattern.matchOne p t binds, Pattern.matchAll (tmpl.zip ws) b ≠ [] := by
        simpa [List.flatMap_eq_nil_iff] using h
      have hp : ∀ n, p ≠ .var n .symbol := fun n hn => htmpl n (hn ▸ List.mem_cons_self ..)
      have htail : ∀ n, .var n .symbol ∉ tmpl := fun n hn => htmpl n (List.mem_cons_of_mem _ hn)
      rw [fits_cons_cons, fitsToken_of_matchOne hp (List.ne_nil_of_mem hb),
        ih htail (by simpa using hlen) hrest]
      rfl

theorem fits_drop (tmpl ws : List Token) {pos : Nat} (hpos : pos ≤ ws.length) :
    fits tmpl ws pos = fits tmpl (ws.drop pos) 0 := by
  have h := fits_append tmpl (ws.take pos) (ws.drop pos)
  rwa [List.take_append_drop, List.length_take_of_le hpos] at h

/-- A template without variables of category `symbol` that matches
at `pos` has the shape of the workspace there. -/
theorem fits_of_firstMatch {tmpl ws : List Token} {pos : Nat} {bs : Bindings}
    (htmpl : ∀ n, .var n .symbol ∉ tmpl) (h : Template.firstMatch tmpl ws pos = some bs) :
    fits tmpl ws pos = true := by
  rw [Template.firstMatch_eq_head, Template.allMatches] at h
  split at h
  · simp at h
  · next hroom =>
    simp only [Bool.or_eq_true, decide_eq_true_eq, not_or, Int.toNat_natCast] at hroom h
    have hne : Pattern.matchAll (tmpl.zip (ws.drop pos)) [] ≠ [] := by
      intro he
      simp [he] at h
    rw [fits_drop tmpl ws (by omega)]
    exact fits_of_matchAll htmpl (by simp; omega) hne

theorem fits_sym_iff (s : String) (ws : List Token) (pos : Nat) :
    fits [.sym s] ws pos = true ↔ ws[pos]? = some (.sym s) := by
  by_cases hpos : pos < ws.length
  · rw [fits_drop _ _ (Nat.le_of_lt hpos), List.drop_eq_getElem_cons hpos, fits_cons_cons,
      fitsToken_sym, List.getElem?_eq_getElem hpos]
    simp
  · have hnone : ws[pos]? = none := List.getElem?_eq_none (by omega)
    simp only [fits, List.length_singleton, hnone]
    simp
    omega

end Library

/-! ### Which rules fire off their shape -/

namespace Firing

/-- The rule that fires. -/
def rule : Firing → Rule
  | .rewritten r _ _ | .entered r _ _ => r

/-- The position it fires at. -/
def pos : Firing → Nat
  | .rewritten _ pos _ | .entered _ pos _ => pos

/-- Whether the firing's rule is a candidate at its position. -/
def Screened (ws : List Token) (f : Firing) : Prop :=
  (f.rule.template.isEmpty || Library.fits f.rule.template ws f.pos) = true

/-- A list or map fold firing at a position that does not hold its opening bracket. -/
def OffBracket (ws : List Token) (f : Firing) : Prop :=
  (f.rule = Builtin.rule .listFold ∨ f.rule = Builtin.rule .mapFold) ∧
    ws[f.pos]? ≠ f.rule.template.head?

theorem not_screened_of_offBracket {ws : List Token} {f : Firing} (h : f.OffBracket ws) :
    ¬ f.Screened ws := by
  obtain ⟨hfold, hpos⟩ := h
  unfold Screened
  rcases hfold with hr | hr <;>
    · rw [hr] at hpos ⊢
      simpa [Builtin.rule, Builtin.template, Library.fits_sym_iff] using hpos

end Firing

namespace Builtin

theorem template_no_symbol_var (b : Builtin) (n : String) : Token.var n .symbol ∉ b.template := by
  cases b with
  | binary op => cases op <;> simp [template, Operator.operandKind]
  | _ => simp [template, anyVar]

theorem firstMatch_of_apply {b : Builtin} (hl : b ≠ .listFold) (hm : b ≠ .mapFold)
    {ws ws' : List Token} {pos : Nat} (h : b.apply ws pos = some ws') :
    ∃ bs, Template.firstMatch b.template ws pos = some bs := by
  cases b with
  | listFold => exact absurd rfl hl
  | mapFold => exact absurd rfl hm
  | _ =>
    simp only [apply] at h
    obtain ⟨bs, hbs, -⟩ := Option.bind_eq_some_iff.1 h
    exact ⟨bs, hbs⟩

end Builtin

namespace Rule

/-- A rule a session can hold: a built-in rule, or a rewrite rule whose template holds no
variable of category `symbol`, as no definition can write one. -/
def Coherent (r : Rule) : Prop :=
  (∃ b, r = Builtin.rule b) ∨
    (∃ body, r.action = .rewrite body) ∧ ∀ n, Token.var n .symbol ∉ r.template

theorem fire_rule_pos {r : Rule} {ws : List Token} {pos : Nat} {f : Firing}
    (h : r.fire ws pos = some f) : f.rule = r ∧ f.pos = pos := by
  unfold fire at h
  split at h <;>
    · obtain ⟨_, -, rfl⟩ := Option.map_eq_some_iff.1 h
      exact ⟨rfl, rfl⟩

/-- A firing of a rule a session can hold is screened
in, unless it is a fold away from its bracket. -/
theorem screened_of_fire {r : Rule} (hr : r.Coherent) {ws : List Token} {pos : Nat} {f : Firing}
    (h : r.fire ws pos = some f) (hoff : ¬ f.OffBracket ws) : f.Screened ws := by
  obtain ⟨hrule, hpos⟩ := fire_rule_pos h
  unfold Firing.Screened
  rw [hrule, hpos]
  rcases hr with ⟨b, rfl⟩ | ⟨⟨body, hbody⟩, hsym⟩
  · by_cases hfold : b = .listFold ∨ b = .mapFold
    · -- a fold is screened in exactly where its bracket stands
      have hat : ws[pos]? = (Builtin.rule b).template.head? := by
        by_contra hne
        exact hoff ⟨by rcases hfold with rfl | rfl <;> simp [hrule], by rwa [hrule, hpos]⟩
      rcases hfold with rfl | rfl <;>
        simpa [Builtin.rule, Builtin.template, Library.fits_sym_iff] using hat
    · obtain ⟨hl, hm⟩ := not_or.1 hfold
      simp only [fire, Builtin.rule] at h
      obtain ⟨ws', hws', -⟩ := Option.map_eq_some_iff.1 h
      obtain ⟨bs, hbs⟩ := Builtin.firstMatch_of_apply hl hm hws'
      simp [Builtin.rule, Library.fits_of_firstMatch (b.template_no_symbol_var) hbs]
  · simp only [fire, hbody] at h
    obtain ⟨bs, hbs, -⟩ := Option.map_eq_some_iff.1 h
    simp [Library.fits_of_firstMatch hsym hbs]

end Rule

namespace Library

theorem builtins_coherent : ∀ r ∈ builtins.rules, r.Coherent := by
  intro r hr
  obtain ⟨b, -, rfl⟩ := List.mem_map.1 hr
  exact .inl ⟨b, rfl⟩

theorem register_coherent {lib : Library} (hlib : ∀ r ∈ lib.rules, r.Coherent) {r : Rule}
    (hr : r.Coherent) : ∀ r' ∈ (lib.register r).rules, r'.Coherent := by
  intro r' hr'
  rcases List.mem_append.1 hr' with h | h
  · exact hlib r' h
  · rw [List.mem_singleton.1 h]
    exact hr

/-! ### The pass against the plain scan -/

/-- The plain scan the candidate screen stands for: every rule of the library at every position
from the left, in registration order, with the same eligibility check and the same firing. -/
def naiveFiring? (lib : Library) (ws : List Token) : Option Firing :=
  (List.range ws.length).findSome? fun pos =>
    lib.rules.findSome? fun r => if r.eligible ws pos then r.fire ws pos else none

theorem findSome?_eq_of_first {α β : Type} {l : List α} {g h : α → Option β} (p : β → Prop)
    (hnone : ∀ a, g a = none → h a = none) (hsome : ∀ a b, g a = some b → p b → h a = some b)
    (hfirst : ∀ b ∈ l.findSome? g, p b) : l.findSome? h = l.findSome? g := by
  induction l with
  | nil => rfl
  | cons a l ih =>
    cases hg : g a with
    | none =>
      have hrest : ∀ b ∈ l.findSome? g, p b := fun b hb => hfirst b (by simpa [hg] using hb)
      simp [hg, hnone a hg, ih hrest]
    | some b =>
      have hb : p b := hfirst b (by simp [hg])
      simp [hg, hsome a b hg hb]

theorem screened_of_mem_firing? {lib : Library} {ws : List Token} {f : Firing}
    (h : f ∈ lib.firing? ws) : f.Screened ws := by
  obtain ⟨pos, -, hpos⟩ := List.exists_of_findSome?_eq_some (Option.mem_def.1 h)
  obtain ⟨r, hr, hfire⟩ := List.exists_of_findSome?_eq_some hpos
  have hscreen := (List.mem_filter.1 (candidates_eq_filter lib ws pos ▸ hr)).2
  split at hfire
  · obtain ⟨hrule, hpos⟩ := Rule.fire_rule_pos hfire
    unfold Firing.Screened
    rwa [hrule, hpos]
  · cases hfire

theorem exists_of_mem_naiveFiring? {lib : Library} {ws : List Token} {f : Firing}
    (h : f ∈ lib.naiveFiring? ws) : ∃ r ∈ lib.rules, ∃ pos, r.fire ws pos = some f := by
  obtain ⟨pos, -, hpos⟩ := List.exists_of_findSome?_eq_some (Option.mem_def.1 h)
  obtain ⟨r, hr, hfire⟩ := List.exists_of_findSome?_eq_some hpos
  split at hfire
  · exact ⟨r, hr, pos, hfire⟩
  · cases hfire

theorem findSome?_attempt_eq (lib : Library) (ws : List Token) (pos : Nat)
    (h : ∀ f ∈ lib.rules.findSome? (fun r => if r.eligible ws pos then r.fire ws pos else none),
      f.Screened ws) :
    lib.rules.findSome? (attempt · ws pos) =
      lib.rules.findSome? fun r => if r.eligible ws pos then r.fire ws pos else none := by
  apply findSome?_eq_of_first (Firing.Screened ws) _ _ h
  · intro r hr
    simp only [attempt, hr, ite_self]
  · intro r b hb hscreen
    -- the rule screened in is the one that fired, at this position
    obtain ⟨hrule, hpos⟩ : b.rule = r ∧ b.pos = pos := by
      split at hb
      · exact Rule.fire_rule_pos hb
      · cases hb
    unfold Firing.Screened at hscreen
    rw [hrule, hpos] at hscreen
    simp only [attempt, hscreen, if_true, hb]

theorem firing?_eq_naiveFiring? (lib : Library) (ws : List Token)
    (h : ∀ f ∈ lib.naiveFiring? ws, f.Screened ws) : lib.firing? ws = lib.naiveFiring? ws := by
  rw [firing?_eq, naiveFiring?]
  apply findSome?_eq_of_first (Firing.Screened ws) _ _ h
  · intro pos hpos
    rw [findSome?_attempt_eq lib ws pos (by simp [hpos]), hpos]
  · intro pos f hf hscreen
    rw [findSome?_attempt_eq lib ws pos (by simpa [hf] using hscreen), hf]

/-- For a library of rules a
session can hold, a pass fires the same rule at the same position with the same result as the
plain scan of every rule, or finds nothing exactly when it does, if and only if the plain scan's
firing is not a list or map fold at a position that holds no opening bracket. -/
theorem firing?_eq_naiveFiring?_iff {lib : Library} (hlib : ∀ r ∈ lib.rules, r.Coherent)
    (ws : List Token) :
    lib.firing? ws = lib.naiveFiring? ws ↔ ∀ f ∈ lib.naiveFiring? ws, ¬ f.OffBracket ws := by
  constructor
  · intro heq f hf hoff
    exact Firing.not_screened_of_offBracket hoff (screened_of_mem_firing? (heq ▸ hf))
  · intro hclean
    apply firing?_eq_naiveFiring?
    intro f hf
    obtain ⟨r, hr, pos, hfire⟩ := exists_of_mem_naiveFiring? hf
    exact Rule.screened_of_fire (hlib r hr) hfire (hclean f hf)

/-- On `a ]` the plain scan folds `]` into the empty list, where the pass finds nothing. -/
theorem firing?_ne_naiveFiring?_of_stray_bracket :
    builtins.firing? [.sym "a", .sym "]"] ≠ builtins.naiveFiring? [.sym "a", .sym "]"] := by
  have hnaive : builtins.naiveFiring? [.sym "a", .sym "]"] =
      some (.rewritten (Builtin.rule .listFold) 0 [.list []]) := by
    simp [naiveFiring?, builtins, Builtin.rules, List.range_succ, Rule.eligible, Rule.fire,
      Builtin.rule, Builtin.apply, Template.firstMatch_eq_head, Template.allMatches,
      Builtin.template, Builtin.subordinateTo, Tokens.splice]
  rw [Ne, firing?_eq_naiveFiring?_iff builtins_coherent, hnaive]
  simp only [Option.mem_def, Option.some.injEq, forall_eq', not_not]
  exact ⟨.inl rfl, by simp [Firing.pos, Firing.rule, Builtin.rule, Builtin.template]⟩

/-! ### The candidates in registration order -/

theorem candidates_eq_map_filter (lib : Library) (ws : List Token) (pos : Nat) :
    lib.candidates ws pos = ((List.finRange lib.rules.length).filter fun i =>
      (lib.rules.get i).template.isEmpty || fits (lib.rules.get i).template ws pos).map
        lib.rules.get := by
  -- the rules are the rules at their registration indices
  have hget : (List.finRange lib.rules.length).map lib.rules.get = lib.rules :=
    List.ext_getElem (by simp) (by simp)
  rw [candidates_eq_filter]
  conv => lhs; rw [← hget]
  rw [List.filter_map]
  rfl

/-- At every position of every workspace, the candidates of
any library are its rules at strictly increasing registration indices, so in registration order
and each registration once. Every rule whose template matches the workspace there and holds no
variable of category `symbol` is among them. -/
theorem candidates_ordered_complete (lib : Library) (ws : List Token) (pos : Nat) :
    ∃ ids : List (Fin lib.rules.length), ids.Pairwise (· < ·) ∧
      lib.candidates ws pos = ids.map lib.rules.get ∧
      ∀ i, (∀ n, Token.var n .symbol ∉ (lib.rules.get i).template) →
        (∃ bs, Template.firstMatch (lib.rules.get i).template ws pos = some bs) → i ∈ ids := by
  refine ⟨_, (List.pairwise_lt_finRange _).filter _, candidates_eq_map_filter lib ws pos, ?_⟩
  rintro i hsym ⟨bs, hbs⟩
  -- a match gives the shape, which is what the screen asks
  have hfits := fits_of_firstMatch hsym hbs
  simp only [List.mem_filter, List.mem_finRange, true_and, hfits, Bool.or_true]

/-- Among the built-in rules, which hold no variable of category `symbol`, the candidates at the
`+` of `1 + 2` are in registration order and hold every rule that matches there. -/
theorem candidates_ordered_complete_builtins :
    ∃ ids : List (Fin builtins.rules.length), ids.Pairwise (· < ·) ∧
      builtins.candidates [.num (.exact 1), .sym "+", .num (.exact 2)] 1 =
        ids.map builtins.rules.get ∧
      ∀ i, (∃ bs, Template.firstMatch (builtins.rules.get i).template
        [.num (.exact 1), .sym "+", .num (.exact 2)] 1 = some bs) → i ∈ ids := by
  obtain ⟨ids, hpair, heq, hall⟩ :=
    candidates_ordered_complete builtins [.num (.exact 1), .sym "+", .num (.exact 2)] 1
  refine ⟨ids, hpair, heq, fun i hmatch => hall i ?_ hmatch⟩
  obtain ⟨b, -, hb⟩ := List.mem_map.1 (List.get_mem builtins.rules i)
  rw [← hb]
  exact b.template_no_symbol_var

/-- The rule `X:symbol`, registered after the built-in rules, matches the symbol `foo`, yet it
is no candidate there: the index files it under the segment of the kind `symbol`, and a symbol
carries only its own segment. -/
theorem candidates_miss_symbol_var :
    let r : Rule := ⟨"X:symbol", [.var "X" .symbol], [], .rewrite [.sym "matched"]⟩
    (∃ bs, Template.firstMatch r.template [.sym "foo"] 0 = some bs) ∧
      r ∉ (builtins.register r).candidates [.sym "foo"] 0 := by
  intro r
  constructor
  · exact ⟨_, by set_option maxRecDepth 8192 in with_unfolding_all rfl⟩
  · rw [candidates_eq_filter, List.mem_filter]
    simp [r, fits, Segment.ofSubject, Segment.ofTemplate]

end Library

end Reckon
