import Reckon.Proofs.Brackets.Compile
import Reckon.Proofs.Reduction.Budget

/-!
# Reductions keep a workspace bracketed

A rule of a session is built in, or compiled from a definition line (`Rule.Admissible`). Each
firing of such a rule on a bracketed workspace keeps what the reduction needs
(`Firing.Keeps`): a built-in rule rewrites it into a bracketed workspace; a compiled rule
enters a bracketed body, and whatever bracketed sequence the nested reduction of that body ends
with goes back over a balanced span. By induction on the passes of a reduction, nested ones
included, the workspace it ends with and the workspace recorded for every rule application
are bracketed (`Library.reduceWith_bracketed`).

A session puts the previous answer in front of an input that starts with an infix operator, in
parentheses when it has several tokens. So a call on a bracketed input, in a session whose
rules are admissible and whose previous answer is bracketed, answers a bracketed sequence or
fails with a bracketed workspace, and leaves a bracketed previous answer
(`Session.evaluate_keeps_brackets`).

Neither condition can go. A map given as tokens may hold a bracket as a value, and the lookup
brings it up: `get true from {true: (}` reduces to `(`. And a previous answer that is not bracketed
spoils the next input: after `(`, the input `+ 1` answers `( + 1`.
-/

namespace Reckon

namespace Rule

/-- A rule a session can hold, as far as brackets go: a built-in rule whose words are no
brackets, or a rule compiled from atoms, as a definition line gives them. -/
def Admissible (r : Rule) : Prop :=
  (∃ b : Builtin, r = b.rule ∧ b.Plain) ∨
    ∃ pat repl, (∀ t ∈ pat ++ repl, t.isAtom = true) ∧ compile pat repl = .ok r

end Rule

namespace Firing

/-- What a firing keeps of a bracketed workspace `ws`: a rewrite leaves it bracketed; a rule that
enters a nested reduction enters a bracketed body, and any bracketed sequence put over the
span it matched leaves the workspace bracketed. -/
def Keeps (ws : List Token) : Firing → Prop
  | .rewritten _ _ ws' => Tokens.Bracketed ws'
  | .entered r pos body =>
    Tokens.Bracketed body ∧ ∀ xs, Tokens.Bracketed xs →
      Tokens.Bracketed (Tokens.splice ws pos (pos + r.template.length) xs)

end Firing

theorem Token.symbolVar_not_mem {tmpl : List Token} (h : ∀ p ∈ tmpl, p.noSymbolVars = true) :
    ∀ n, Token.var n .symbol ∉ tmpl := by
  intro n hn
  simpa [Token.noSymbolVars] using h _ hn

/-- An admissible rule that fires where it is a candidate keeps a bracketed
workspace. -/
theorem Rule.fire_keeps {r : Rule} (hr : r.Admissible) {ws : List Token} {pos : Nat} {f : Firing}
    (hws : Tokens.Bracketed ws)
    (hcand : (r.template.isEmpty || Library.fits r.template ws pos) = true)
    (h : r.fire ws pos = some f) : f.Keeps ws := by
  rcases hr with ⟨b, rfl, hb⟩ | ⟨pat, repl, hatoms, hcomp⟩
  · -- a built-in rule rewrites where its template fits
    simp only [fire, Builtin.rule] at h
    obtain ⟨ws', hws', rfl⟩ := Option.map_eq_some_iff.1 h
    have hne : b.template.isEmpty = false := List.isEmpty_eq_false_iff.2 (Builtin.template_ne_nil hb)
    simp only [Builtin.rule, hne, Bool.false_or] at hcand
    exact Builtin.apply_bracketed hb hws hcand hws'
  · -- a compiled rule enters its body where its template matches
    obtain ⟨hvars, hbal, body, hact, hwb, hforms⟩ := Rule.compile_fine hatoms hcomp
    simp only [fire, hact] at h
    obtain ⟨bs, hbs, rfl⟩ := Option.map_eq_some_iff.1 h
    have hfits := Library.fits_of_firstMatch (Token.symbolVar_not_mem hvars) hbs
    obtain ⟨hroom, hspan⟩ :=
      Library.balanced_slice_of_fits (Token.symbolVar_not_mem hvars) hbal hfits
    exact ⟨Bindings.instantiate_bracketed (Template.inert_of_firstMatch hvars hws.2 hbs) hforms hwb,
      fun xs hxs => hws.splice_at (by omega) hspan hxs⟩

namespace Library

theorem firing?_keeps {lib : Library} (hlib : ∀ r ∈ lib.rules, r.Admissible) {ws : List Token}
    {f : Firing} (hws : Tokens.Bracketed ws) (h : lib.firing? ws = some f) : f.Keeps ws := by
  rw [firing?_eq] at h
  obtain ⟨pos, -, h⟩ := List.exists_of_findSome?_eq_some h
  obtain ⟨r, hr, h⟩ := List.exists_of_findSome?_eq_some h
  unfold attempt at h
  split at h
  · split at h
    · exact Rule.fire_keeps (hlib r hr) hws (by assumption) h
    · simp at h
  · simp at h

/-- A reduction's result as far as brackets go: its workspace and the workspace of every
recorded rule application are bracketed. -/
def Bracketed (r : Reduced × Progress) : Prop :=
  Tokens.Bracketed r.1.workspace ∧ ∀ e ∈ r.2.trace.toList, Tokens.Bracketed e.workspace

theorem trace_push {p : Array TraceEntry} (hp : ∀ e ∈ p.toList, Tokens.Bracketed e.workspace)
    {e : TraceEntry} (he : Tokens.Bracketed e.workspace) :
    ∀ e' ∈ (p.push e).toList, Tokens.Bracketed e'.workspace := by
  intro e' he'
  rw [Array.toList_push] at he'
  rcases List.mem_append.1 he' with he' | he'
  · exact hp e' he'
  · rw [List.mem_singleton.1 he']
    exact he

/-- Every pass of a reduction with admissible rules, nested reductions included,
keeps its workspace bracketed and records bracketed workspaces only. The induction follows
the passes; a nested reduction is covered by the hypothesis for its own passes. -/
theorem reduceWith_bracketed {lib : Library} (hlib : ∀ r ∈ lib.rules, r.Admissible)
    (limit fuel depth : Nat) (ws : List Token) (p : Progress) (hws : Tokens.Bracketed ws)
    (hp : ∀ e ∈ p.trace.toList, Tokens.Bracketed e.workspace) :
    Bracketed (lib.reduceWith limit fuel depth ws p) := by
  fun_induction lib.reduceWith limit fuel depth ws p with
  | case1 | case2 | case3 => exact ⟨hws, hp⟩
  | case4 fuel depth ws p _ r pos ws' hfire n ih =>
    have hws' : Tokens.Bracketed ws' := firing?_keeps hlib hws hfire
    exact ih hws' (trace_push hp hws')
  | case5 fuel depth ws p _ r pos body hfire n inner q hinner _ ws' ihInner ih =>
    obtain ⟨hbody, hsplice⟩ := firing?_keeps hlib hws hfire
    have hq : Bracketed (inner, q) := hinner ▸ ihInner hbody hp
    have hws' : Tokens.Bracketed ws' := hsplice _ hq.1
    exact ih hws' (trace_push hq.2 hws')
  | case6 fuel depth ws p _ r pos body hfire n inner q hinner _ ihInner =>
    obtain ⟨hbody, -⟩ := firing?_keeps hlib hws hfire
    exact ⟨hws, (hinner ▸ ihInner hbody hp : Bracketed (inner, q)).2⟩

theorem reduce_bracketed {lib : Library} (hlib : ∀ r ∈ lib.rules, r.Admissible) (limit : Nat)
    {ws : List Token} (hws : Tokens.Bracketed ws) : Bracketed (lib.reduce limit ws) :=
  reduceWith_bracketed hlib _ _ _ ws {} hws (by simp)

theorem builtins_admissible : ∀ r ∈ builtins.rules, r.Admissible :=
  fun _ hr => .inl (Builtin.plain_of_mem_rules hr)

theorem register_admissible {lib : Library} (hlib : ∀ r ∈ lib.rules, r.Admissible) {r : Rule}
    (hr : r.Admissible) : ∀ r' ∈ (lib.register r).rules, r'.Admissible := by
  intro r' hr'
  rcases List.mem_append.1 hr' with h | h
  · exact hlib r' h
  · rw [List.mem_singleton.1 h]
    exact hr

theorem firing?_eq_none {lib : Library} {ws : List Token}
    (h : ∀ pos < ws.length, ∀ r ∈ lib.rules, (r.template.isEmpty || fits r.template ws pos) = false) :
    lib.firing? ws = none := by
  rw [firing?_eq, List.findSome?_eq_none_iff]
  intro pos hpos
  rw [List.findSome?_eq_none_iff]
  intro r hr
  simp [attempt, h pos (List.mem_range.1 hpos) r hr]

theorem firing?_lookup_bracket :
    builtins.firing? [.sym "get", .bool true, .sym "from", .map [(.bool true, .sym "(")]] =
      some (.rewritten (Builtin.rule .lookup) 0 [.sym "("]) := by
  -- the lookup is the only rule that fits, and it fits at the first position
  rw [firing?_eq, List.length_cons, List.range_succ_eq_map, List.findSome?_cons]
  simp [builtins, Builtin.rules, attempt, fits, Rule.eligible, Rule.fire,
    Builtin.rule, Builtin.apply, Template.firstMatch_eq_head, Template.allMatches,
    Builtin.template, Builtin.subordinateTo, Tokens.splice, Segment.ofTemplate,
    Segment.ofSubject, Pattern.matchOne, Builtin.anyVar, Entries.get?, Token.equal, Token.kind,
    Token.accepts, Token.isValue, List.lookup_cons]

theorem builtins_mk : Library.mk Builtin.rules = builtins := rfl

end Library

namespace Session

theorem build_admissible (settings : List Setting) (h : ∀ r ∈ Setting.extra settings, r.Admissible) :
    ∀ r ∈ (build settings).library.rules, r.Admissible := by
  intro r hr
  rw [← rules, rules_build] at hr
  rcases List.mem_append.1 hr with hr | hr
  · exact Library.builtins_admissible r hr
  · exact h r hr

/-- A definition line is read into atoms, so
the rule it registers is compiled from atoms; any other line leaves the library as it is. -/
theorem enter_admissible (s : Session) (hs : ∀ r ∈ s.library.rules, r.Admissible) (text : String) :
    ∀ r ∈ (s.enter text).2.library.rules, r.Admissible := by
  unfold enter
  split
  · exact hs
  · rename_i ts hlex
    split
    · rename_i pat repl hsplit
      unfold define
      split
      · exact hs
      · rename_i r hr
        -- pattern and replacement are both tokens of the lexed line
        have hatoms : ∀ t ∈ pat ++ repl, t.isAtom = true := by
          intro t ht
          rcases List.mem_append.1 ht with ht | ht
          · exact Tokens.lex_isAtom hlex t (Tokens.mem_of_splitDefinition hsplit t ht)
          · exact Tokens.lex_isAtom hlex t (Tokens.mem_of_splitDefinition_right hsplit t ht)
        exact Library.register_admissible hs (.inr ⟨pat, repl, hatoms, hr⟩)
    · rw [library_evaluate]
      exact hs

theorem continuing_bracketed {s : Session} (hprev : Tokens.Bracketed s.previous) {ts : List Token}
    (hts : Tokens.Bracketed ts) : Tokens.Bracketed (s.continuing ts) := by
  unfold continuing
  split
  · split
    · refine Tokens.Bracketed.append ?_ hts
      unfold continued
      split
      · exact hprev
      · exact hprev.parenthesized
    · exact hts
  · exact hts

/-- In a session whose rules are admissible and whose previous
answer is bracketed, every rule application keeps a bracketed workspace; and a call on a
bracketed input reports bracketed workspaces for the steps it dumps, answers a bracketed
sequence or fails with a bracketed workspace, and leaves a bracketed previous answer. -/
theorem evaluate_keeps_brackets {s : Session} (hlib : ∀ r ∈ s.library.rules, r.Admissible)
    (hprev : Tokens.Bracketed s.previous) {ts : List Token} (hts : Tokens.Bracketed ts) :
    (∀ ws f, Tokens.Bracketed ws → s.library.firing? ws = some f → f.Keeps ws) ∧
      (∀ e, Event.step e ∈ (s.evaluate ts).1.events → Tokens.Bracketed e.workspace) ∧
      (∀ out, (s.evaluate ts).1.result = .ok out → Tokens.Bracketed out) ∧
      (∀ n m ws, (s.evaluate ts).1.result = .error (.overBudget n m ws) →
        Tokens.Bracketed ws) ∧
      Tokens.Bracketed (s.evaluate ts).2.previous := by
  refine ⟨fun ws f hws h => Library.firing?_keeps hlib hws h, ?_⟩
  have hred := Library.reduce_bracketed hlib s.maxSteps (continuing_bracketed hprev hts)
  unfold evaluate
  split
  · simp [hprev]
  · split
    rename_i r p heq
    obtain ⟨hws, htrace⟩ : Library.Bracketed (r, p) := heq ▸ hred
    -- the events are the recorded steps when dumping is on, and none otherwise
    have hevents : ∀ e, Event.step e ∈ (if s.dump then p.trace.toList.map Event.step else []) →
        Tokens.Bracketed e.workspace := by
      intro e he
      split at he
      · obtain ⟨e', he', heq⟩ := List.mem_map.1 he
        cases heq
        exact htrace e he'
      · simp at he
    dsimp only
    split
    · exact ⟨hevents, fun out h => by cases h; exact hws, by simp, hws⟩
    · exact ⟨hevents, by simp, fun n m ws h => by cases h; exact hws, hprev⟩

/-- After `x + 1`, the input `* ( 2 )` is read as `( x + 1 ) * ( 2 )`, and its reduction keeps
brackets. -/
theorem evaluate_keeps_brackets_continued :
    Tokens.Bracketed [.sym "x", .sym "+", .num (.exact 1)] ∧
      Tokens.Bracketed [.sym "*", .sym "(", .num (.exact 2), .sym ")"] ∧
      Tokens.Bracketed ({ build [] with previous := [.sym "x", .sym "+", .num (.exact 1)] }.evaluate
        [.sym "*", .sym "(", .num (.exact 2), .sym ")"]).2.previous := by
  have hprev : Tokens.Bracketed [.sym "x", .sym "+", .num (.exact 1)] := by decide
  have hts : Tokens.Bracketed [.sym "*", .sym "(", .num (.exact 2), .sym ")"] := by decide
  exact ⟨hprev, hts, (@evaluate_keeps_brackets
    { build [] with previous := [.sym "x", .sym "+", .num (.exact 1)] }
    (build_admissible [] (by simp [Setting.extra])) hprev _ hts).2.2.2.2⟩

/-! ### Where brackets are lost -/

/-- A map given as tokens may hold a bracket as a value, and the lookup brings it up: a fresh
session answers the well-bracketed `get true from {true: (}` with `(`. -/
theorem evaluate_lookup_unbalances :
    Tokens.WellBracketed [.sym "get", .bool true, .sym "from", .map [(.bool true, .sym "(")]] ∧
      ((build []).evaluate [.sym "get", .bool true, .sym "from", .map [(.bool true, .sym "(")]]).1.result =
        .ok [.sym "("] ∧
      ¬ Tokens.WellBracketed [.sym "("] := by
  have hopen : Library.builtins.firing? [.sym "("] = none := Library.firing?_eq_none (by decide)
  refine ⟨by decide, ?_, by decide⟩
  simp [evaluate, Library.reduce, build, draft, continuing, Library.reduceWith, Library.builtins_mk,
    Library.firing?_lookup_bracket, hopen, defaultMaxSteps]

theorem evaluate_after_open_unbalances :
    Tokens.WellBracketed [.sym "+", .num (.exact 1)] ∧
      (((build []).evaluate [.sym "("]).2.evaluate [.sym "+", .num (.exact 1)]).1.result =
        .ok [.sym "(", .sym "+", .num (.exact 1)] ∧
      ¬ Tokens.WellBracketed [.sym "(", .sym "+", .num (.exact 1)] := by
  have hopen : Library.builtins.firing? [.sym "("] = none := Library.firing?_eq_none (by decide)
  have hnormal : Library.builtins.firing? [.sym "(", .sym "+", .num (.exact 1)] = none :=
    Library.firing?_eq_none (by decide)
  have hinfix : Library.builtins.isInfix "+" = true := by decide
  -- the first call leaves `(` as the previous answer
  have hfirst : ((build []).evaluate [.sym "("]).2 = { build [] with previous := [.sym "("] } := by
    simp [evaluate, Library.reduce, build, draft, continuing, Library.reduceWith, Library.builtins_mk, hopen]
  refine ⟨by decide, ?_, by decide⟩
  rw [hfirst]
  simp [evaluate, Library.reduce, build, draft, continuing, continued, Library.reduceWith,
    Library.builtins_mk, hinfix, hnormal]

end Session

end Reckon
