import Reckon.Proofs.Nested.Between
import Reckon.Proofs.Reduction.Budget
import Reckon.Proofs.Session.Roundtrip

/-!
# Lists and maps of parts that keep to themselves

A list `[ e1 , ... , en ]`, a list with a tail `[ e1 , ... , en ... et ]` and a map
`{ k1 : w1 , ... , km : wm }` are reduced part by part from the left: each part is reduced in
place as it is reduced alone, and once every part is a value one fold builds the list or map.
That holds for parts that keep to themselves (`Nested.Answers`): each part, and each workspace
its own reduction rewrites it into, is sealed (`Tokens.Sealed`), so no rule of the part reaches
the separators around it; and the user rules of the library have at least two tokens and no
comma or colon.

A run in place follows the run alone pass for pass (`Library.reduceWith_between`), and the runs
of the parts chain (`Library.Leads`, a run that comes from one workspace to another in a number
of steps).

Main statement: `Nested.evaluate_parts`.
-/

namespace Reckon

namespace Tokens

theorem splice_between (pre w post repl : List Token) {a b : Nat} (hab : a ≤ b)
    (hb : b ≤ w.length) :
    splice (pre ++ w ++ post) (pre.length + a) (pre.length + b) repl =
      pre ++ splice w a b repl ++ post := by
  simp [splice, List.take_append, List.drop_append, List.take_of_length_le, hb,
    List.drop_eq_nil_of_le, Nat.le_trans hab hb]

theorem splice_whole (ws repl : List Token) {n : Nat} (hn : ws.length ≤ n) :
    splice ws 0 n repl = repl := by
  rw [splice, List.take_zero, List.nil_append, List.drop_eq_nil_of_le hn, List.append_nil]

theorem sealed_value {v : Token} (hv : v.isValue = true) : Sealed [v] := by
  have hsym : ∀ s, v.isSym s = false := fun s => by
    cases v <;> simp_all [Token.isSym, Token.isValue, Token.kind]
  refine ⟨?_, fun q hq s _ h => ?_, fun q hq h => ?_⟩
  · cases v <;> first | rfl | simp [Token.isValue, Token.kind] at hv
  · obtain rfl : q = 0 := by simpa using hq
    simp [hsym] at h
  · obtain rfl : q = 0 := by simpa using hq
    simp [hsym] at h

end Tokens

namespace Library

theorem span_le_of_entered {lib : Library} {ws : List Token} {r : Rule} {pos : Nat}
    {body : List Token} (h : lib.firing? ws = some (.entered r pos body)) :
    pos + r.template.length ≤ ws.length := by
  rw [firing?_eq] at h
  obtain ⟨q, hq, h⟩ := List.exists_of_findSome?_eq_some h
  obtain ⟨r', -, h⟩ := List.exists_of_findSome?_eq_some h
  unfold attempt at h
  split at h
  · rename_i hcand
    split at h
    · unfold Rule.fire at h
      split at h
      · simp at h
      · obtain ⟨b, -, hb⟩ := Option.map_eq_some_iff.1 h
        cases hb
        rcases Bool.or_eq_true _ _ ▸ hcand with hempty | hfit
        · simp only [List.isEmpty_iff] at hempty
          simp [hempty, Nat.le_of_lt (List.mem_range.1 hq)]
        · simp only [fits, Bool.and_eq_true, decide_eq_true_eq] at hfit
          omega
    · cases h
  · cases h

/-- Let a reduction of a sealed part end in a single value, every workspace it
rewrites the part into at its own depth being sealed too. Then with a bracket and values and
separators before the part and a separator or closer after it, the reduction is repeated pass
for pass, `j` steps later under a budget `j` larger, and leaves the value in place with at most
as many passes spent as steps taken. -/
theorem reduceWith_between {lib : Library} {us : List Rule} (hlib : lib.rules = Builtin.rules ++ us)
    (hus : ∀ u ∈ us, u.ListSafe) {pre : List Token} (hpre : Tokens.Opening pre) {c : String}
    (hc : c ∈ Nested.closers) (rest : List Token) (j : Nat) {v : Token} {q : Progress}
    {limit fuel depth : Nat} {w : List Token} {p : Progress} :
    lib.reduceWith limit fuel depth w p = (⟨[v], true⟩, q) → Tokens.Sealed w →
      (∀ e ∈ q.trace.toList, e.depth = depth → Tokens.Sealed e.workspace) →
      ∀ p' : Progress, p'.steps = p.steps + j → ∃ fuel' t, fuel ≤ fuel' + (q.steps - p.steps) ∧
        lib.reduceWith (limit + j) fuel depth (pre ++ w ++ .sym c :: rest) p' =
          lib.reduceWith (limit + j) fuel' depth (pre ++ [v] ++ .sym c :: rest) ⟨q.steps + j, t⟩ := by
  -- each pass is recorded at the part's depth, so the workspace it leaves is sealed as well
  have hnext : ∀ {fuel depth ws' k} {t : Array TraceEntry} (e : TraceEntry),
      lib.reduceWith limit fuel depth ws' ⟨k, t.push e⟩ = (⟨[v], true⟩, q) →
      (∀ e ∈ q.trace.toList, e.depth = depth → Tokens.Sealed e.workspace) →
      e.depth = depth → Tokens.Sealed e.workspace := by
    intro fuel depth ws' k t e h hq he
    have hpre := lib.trace_prefix_reduceWith limit fuel depth ws' ⟨k, t.push e⟩
    rw [h] at hpre
    exact hq e (hpre.subset (by simp)) he
  fun_induction lib.reduceWith limit fuel depth w p with
  | case1 | case2 | case6 => intro h; simp at h
  | case3 fuel depth w p hunder hnone =>
    intro h _ _ p' hp'
    simp only [Prod.mk.injEq, Reduced.mk.injEq, and_true] at h
    obtain ⟨rfl, rfl⟩ := h
    refine ⟨fuel + 1, p'.trace, by omega, ?_⟩
    rw [← hp']
  | case4 fuel depth w p hunder r pos ws' hfire n ih =>
    intro h hw hq p' hp'
    have hws' := hnext _ h hq rfl
    have hle := lib.steps_le_reduceWith limit fuel depth ws' ⟨n, p.trace.push ⟨n, depth, r.name, pos, ws'⟩⟩
    rw [h] at hle
    obtain ⟨fuel', t, hfuel', heq⟩ := ih h hws' hq ⟨p'.steps + 1, p'.trace.push
      ⟨p'.steps + 1, depth, r.name, pre.length + pos, pre ++ ws' ++ .sym c :: rest⟩⟩
      (by simp only [n]; omega)
    refine ⟨fuel', t, ?_, ?_⟩
    · dsimp only [n] at hle hfuel'
      omega
    rw [reduceWith_rewritten (by omega) (by omega) (firing?_between hlib hus hpre hw hc rest hfire)]
    exact heq
  | case5 fuel depth w p hunder r pos body hfire n inner q₁ hinner hnormal ws' ihInner ih =>
    intro h hw hq p' hp'
    have hws' := hnext _ h hq rfl
    have hin := lib.steps_le_reduceWith limit fuel (depth + 1) body ⟨n, p.trace⟩
    have hout := lib.steps_le_reduceWith limit fuel depth ws'
      ⟨q₁.steps, q₁.trace.push ⟨n, depth, r.name, pos, ws'⟩⟩
    rw [hinner] at hin
    rw [h] at hout
    -- the nested reduction is the same in place, `j` steps later
    obtain ⟨hsame, hcount⟩ := reduceWith_later lib limit j fuel (depth + 1) body ⟨n, p.trace⟩ p'.trace
    rw [show (⟨n, p.trace⟩ : Progress).steps + j = p'.steps + 1 by simp only [n]; omega, hinner]
      at hsame hcount
    rcases hctx : lib.reduceWith (limit + j) fuel (depth + 1) body ⟨p'.steps + 1, p'.trace⟩ with
      ⟨inner', q₂⟩
    rw [hctx] at hsame hcount
    obtain ⟨body', normal⟩ := inner
    dsimp only at hnormal hsame hcount hin hout
    subst hnormal hsame
    obtain ⟨fuel', t, hfuel', heq⟩ := ih h hws' hq ⟨q₂.steps, q₂.trace.push
      ⟨p'.steps + 1, depth, r.name, pre.length + pos, pre ++ ws' ++ .sym c :: rest⟩⟩ hcount
    refine ⟨fuel', t, ?_, ?_⟩
    · dsimp only [n] at hin hfuel'
      omega
    rw [reduceWith_entered (by omega) (by omega) (firing?_between hlib hus hpre hw hc rest hfire)
      hctx, Nat.add_assoc, Tokens.splice_between pre w _ _ (by omega) (span_le_of_entered hfire)]
    exact heq

/-- A run from `ws` at any count comes after `k` steps to a run from `ws'`, with at most `k`
passes spent, whenever the budget covers those steps and the fuel more than them. -/
def Leads (lib : Library) (limit k : Nat) (ws ws' : List Token) : Prop :=
  ∀ fuel steps (t : Array TraceEntry), steps + k ≤ limit → k < fuel →
    ∃ fuel' t', fuel ≤ fuel' + k ∧
      lib.reduceWith limit fuel 1 ws ⟨steps, t⟩ = lib.reduceWith limit fuel' 1 ws' ⟨steps + k, t'⟩

variable {lib : Library} {limit : Nat}

theorem Leads.refl (ws : List Token) : lib.Leads limit 0 ws ws :=
  fun fuel _ t _ _ => ⟨fuel, t, by omega, rfl⟩

theorem Leads.trans {k k' : Nat} {ws ws' ws'' : List Token} (h : lib.Leads limit k ws ws')
    (h' : lib.Leads limit k' ws' ws'') : lib.Leads limit (k + k') ws ws'' := by
  intro fuel steps t hsteps hfuel
  obtain ⟨fuel₁, t₁, hfuel₁, heq₁⟩ := h fuel steps t (by omega) (by omega)
  obtain ⟨fuel₂, t₂, hfuel₂, heq₂⟩ := h' fuel₁ (steps + k) t₁ (by omega) (by omega)
  refine ⟨fuel₂, t₂, by omega, ?_⟩
  rw [heq₁, heq₂, Nat.add_assoc]

theorem leads_of_rewritten {ws ws' : List Token} {r : Rule} {pos : Nat}
    (h : lib.firing? ws = some (.rewritten r pos ws')) : lib.Leads limit 1 ws ws' := by
  intro fuel steps t hsteps hfuel
  exact ⟨fuel - 1, _, by omega, reduceWith_rewritten (by omega) (by dsimp only; omega) h⟩

theorem reduce_of_leads {k : Nat} {ws ws' : List Token} (h : lib.Leads limit k ws ws')
    (hk : k ≤ limit) (hnormal : lib.firing? ws' = none) :
    (lib.reduce limit ws).1 = ⟨ws', true⟩ ∧ (lib.reduce limit ws).2.steps = k := by
  obtain ⟨fuel', t', hfuel', heq⟩ := h (limit + 2) 0 #[] (by omega) (by omega)
  have hrun : lib.reduce limit ws = (⟨ws', true⟩, ⟨k, t'⟩) := by
    rw [reduce, show ({} : Progress) = ⟨0, #[]⟩ from rfl, heq, Nat.zero_add]
    exact reduceWith_normal (by omega) hk hnormal
  rw [hrun]
  exact ⟨rfl, rfl⟩

theorem Leads.cast {k k' : Nat} {ws ws' vs vs' : List Token} (h : lib.Leads limit k ws ws')
    (h₁ : ws = vs) (h₂ : ws' = vs') (hk : k = k') : lib.Leads limit k' vs vs' := by
  subst h₁ h₂ hk
  exact h

section Close

variable {us : List Rule} (hlib : lib.rules = Builtin.rules ++ us) (hus : ∀ u ∈ us, u.ListSafe)
include hlib hus

theorem firing?_fold {o : String} {X ws' : List Token} {b : Builtin}
    (hb : (o = "[" ∧ b = .listFold) ∨ (o = "\x7b" ∧ b = .mapFold))
    (happly : b.apply (.sym o :: X) 0 = some ws') :
    lib.firing? (.sym o :: X) = some (.rewritten b.rule 0 ws') := by
  have h0 : (Token.sym o :: X)[0]? = some (.sym o) := rfl
  refine firing?_eq_of_first 0 (by simp) [] (by simp) (fun q hq => absurd hq (Nat.not_lt_zero q)) ?_
  rw [hlib, findSome?_attempt_opener hus (hb.imp And.left And.left) h0]
  rcases hb with ⟨rfl, rfl⟩ | ⟨rfl, rfl⟩
  · rw [attempt_fold listFold_template rfl h0, happly]
    rfl
  · rw [attempt_fold_eq_none listFold_template (by simp), attempt_fold mapFold_template rfl h0,
      happly]
    rfl

theorem firing?_close_list {vs : List Token} {v : Token} (hvs : ∀ u ∈ vs, u.isValue = true)
    (hv : v.isValue = true) :
    lib.firing? (.sym "[" :: (Tokens.listFrame vs ++ [v, .sym "]"])) =
      some (.rewritten Builtin.listFold.rule 0 [.list (vs ++ [v])]) := by
  have hdrop : (Token.sym "[" :: (Tokens.listFrame vs ++ [v, .sym "]"])).drop (0 + 1) =
      Tokens.listFrame vs ++ v :: .sym "]" :: [] := by simp
  have happly :=
    Builtin.listFold_apply_frame hdrop hvs fun _ => by simpa using Builtin.value_ne_sym hv "]"
  rw [Builtin.foldList_close (Tokens.length_listFrame vs ▸ Builtin.drop_past hdrop) hv] at happly
  rw [Tokens.splice_whole _ _ (by simp only [List.length_cons, List.length_append,
    Tokens.length_listFrame, List.length_nil]; omega)] at happly
  exact firing?_fold hlib hus (.inl ⟨rfl, rfl⟩) happly

theorem firing?_close_tail {vs ts : List Token} {v : Token} (hvs : ∀ u ∈ vs, u.isValue = true)
    (hv : v.isValue = true) :
    lib.firing? (.sym "[" :: (Tokens.listFrame vs ++ [v, .sym "...", .list ts, .sym "]"])) =
      some (.rewritten Builtin.listFold.rule 0 [.list (vs ++ [v] ++ ts)]) := by
  have hdrop : (Token.sym "[" :: (Tokens.listFrame vs ++ [v, .sym "...", .list ts, .sym "]"])).drop
      (0 + 1) = Tokens.listFrame vs ++ v :: .sym "..." :: .list ts :: .sym "]" :: [] := by simp
  have happly :=
    Builtin.listFold_apply_frame hdrop hvs fun _ => by simpa using Builtin.value_ne_sym hv "]"
  rw [Builtin.foldList_close_tail (Tokens.length_listFrame vs ▸ Builtin.drop_past hdrop) hv]
    at happly
  rw [Tokens.splice_whole _ _ (by simp only [List.length_cons, List.length_append,
    Tokens.length_listFrame, List.length_nil]; omega)] at happly
  exact firing?_fold hlib hus (.inl ⟨rfl, rfl⟩) happly

theorem firing?_close_map {fs : List (Token × Token)} {k v : Token}
    (hfs : ∀ f ∈ fs, f.1.isValue = true ∧ f.2.isValue = true) (hk : k.isValue = true)
    (hv : v.isValue = true) :
    lib.firing? (.sym "\x7b" :: (Tokens.mapFrame fs ++ [k, .sym ":", v, .sym "\x7d"])) =
      some (.rewritten Builtin.mapFold.rule 0 [.map (Entries.build (fs ++ [(k, v)]))]) := by
  have hdrop : (Token.sym "\x7b" :: (Tokens.mapFrame fs ++ [k, .sym ":", v, .sym "\x7d"])).drop
      (0 + 1) = Tokens.mapFrame fs ++ k :: .sym ":" :: v :: .sym "\x7d" :: [] := by simp
  have happly :=
    Builtin.mapFold_apply_frame hdrop hfs fun _ => by simpa using Builtin.value_ne_sym hk "\x7d"
  rw [Builtin.foldMap_close (Tokens.length_mapFrame fs ▸ Builtin.drop_past hdrop) hk hv] at happly
  rw [Tokens.splice_whole _ _ (by simp only [List.length_cons, List.length_append,
    Tokens.length_mapFrame, List.length_nil]; omega)] at happly
  exact firing?_fold hlib hus (.inr ⟨rfl, rfl⟩) happly

end Close

end Library

namespace Session

theorem steps_evaluate (s : Session) {ts : List Token} (hne : ts ≠ []) :
    (s.evaluate ts).2.steps = (s.library.reduce s.maxSteps (s.continuing ts)).2.steps := by
  unfold evaluate
  split
  · rename_i hempty
    simp [List.isEmpty_iff.1 hempty] at hne
  · split
    rename_i r p heq
    dsimp only
    split <;> simp [heq]

end Session

namespace Nested

/-- A part of a list or a map: its tokens, and the value and steps its reduction alone ends
with. -/
structure Part where
  tokens : List Token
  value : Token
  steps : Nat

/-- Parts each followed by a comma. -/
def withCommas (ps : List Part) : List Token := ps.flatMap fun p => p.tokens ++ [.sym ","]

/-- Entries `k : w` each followed by a comma. -/
def entriesWithCommas (es : List (Part × Part)) : List Token :=
  es.flatMap fun e => e.1.tokens ++ .sym ":" :: e.2.tokens ++ [.sym ","]

/-- `[ e1 , ... , en ]`: the items `ps` each followed by a comma, then the last item `e`. -/
def listTokens (ps : List Part) (e : Part) : List Token :=
  .sym "[" :: (withCommas ps ++ e.tokens ++ [.sym "]"])

/-- `[ e1 , ... , en ... et ]`: the items, then the tail `t` after `...`. -/
def listTailTokens (ps : List Part) (e t : Part) : List Token :=
  .sym "[" :: (withCommas ps ++ e.tokens ++ .sym "..." :: (t.tokens ++ [.sym "]"]))

/-- `{ k1 : w1 , ... , km : wm }`: the entries `es` each followed by a comma, then the last entry
`k : w`. -/
def mapTokens (es : List (Part × Part)) (k w : Part) : List Token :=
  .sym "\x7b" :: (entriesWithCommas es ++ k.tokens ++ .sym ":" :: (w.tokens ++ [.sym "\x7d"]))

/-- A session answers a part alone by its value after its steps, and the part keeps to itself:
it and each workspace its reduction rewrites it into at the top are sealed. -/
structure Answers (s : Session) (p : Part) : Prop where
  value : p.value.isValue = true
  result : (s.evaluate p.tokens).1.result = .ok [p.value]
  steps : (s.evaluate p.tokens).2.steps = p.steps
  sealed : Tokens.Sealed p.tokens
  confined : ∀ e ∈ (s.library.reduce s.maxSteps p.tokens).2.trace.toList, e.depth = 1 →
    Tokens.Sealed e.workspace

section Parts

variable {s : Session} {us : List Rule} (hlib : s.library.rules = Builtin.rules ++ us)
  (hus : ∀ u ∈ us, u.ListSafe) (hprev : s.previous = [])

theorem Answers.tokens_ne_nil {p : Part} (hp : Answers s p) : p.tokens ≠ [] := by
  intro h
  have hres := hp.result
  simp [h, Session.evaluate] at hres

include hprev in
theorem Answers.reduce {p : Part} (hp : Answers s p) :
    s.library.reduce s.maxSteps p.tokens =
        (⟨[p.value], true⟩, (s.library.reduce s.maxSteps p.tokens).2) ∧
      (s.library.reduce s.maxSteps p.tokens).2.steps = p.steps := by
  have hne := hp.tokens_ne_nil
  have hres := (Session.evaluate_ok_iff s hne _).1 hp.result
  have hsteps : (s.library.reduce s.maxSteps (s.continuing p.tokens)).2.steps = p.steps := by
    rw [← Session.steps_evaluate s hne]
    exact hp.steps
  rw [Arith.continuing_of_previous_nil hprev] at hres hsteps
  exact ⟨by rw [← hres], hsteps⟩

include hprev in
theorem Answers.of_reduce {p : Part} {q : Progress} (hne : p.tokens ≠ [])
    (hv : p.value.isValue = true) (h : s.library.reduce s.maxSteps p.tokens = (⟨[p.value], true⟩, q))
    (hq : q.steps = p.steps) (hsealed : Tokens.Sealed p.tokens)
    (hconfined : ∀ e ∈ q.trace.toList, e.depth = 1 → Tokens.Sealed e.workspace) : Answers s p where
  value := hv
  result := by
    rw [Session.evaluate_ok_iff s hne, Arith.continuing_of_previous_nil hprev, h]
  steps := by
    rw [Session.steps_evaluate s hne, Arith.continuing_of_previous_nil hprev, h, hq]
  sealed := hsealed
  confined := by
    rw [h]
    exact hconfined

theorem values_of_answers {ps : List Part} (hps : ∀ p ∈ ps, Answers s p) :
    ∀ v ∈ ps.map Part.value, v.isValue = true := by
  intro v hv
  obtain ⟨p, hp, rfl⟩ := List.mem_map.1 hv
  exact (hps p hp).value

theorem values_of_entries {es : List (Part × Part)}
    (hes : ∀ e ∈ es, Answers s e.1 ∧ Answers s e.2) :
    ∀ f ∈ es.map (fun e => (e.1.value, e.2.value)), f.1.isValue = true ∧ f.2.isValue = true := by
  intro f hf
  obtain ⟨e, he, rfl⟩ := List.mem_map.1 hf
  exact ⟨(hes e he).1.value, (hes e he).2.value⟩

include hlib hus hprev

theorem answers_value {v : Token} (hv : v.isValue = true) : Answers s ⟨[v], v, 0⟩ :=
  Answers.of_reduce hprev (List.cons_ne_nil v []) hv
    (Library.reduceWith_normal (by omega) (Nat.zero_le _) (Library.firing?_singleton hlib hus hv))
    rfl (Tokens.sealed_value hv) (by simp)

theorem answers_closed_list {vs : List Token} {v : Token} (hvs : ∀ u ∈ vs, u.isValue = true)
    (hv : v.isValue = true) (hsealed : Tokens.Sealed (.sym "[" :: (Tokens.listFrame vs ++ [v, .sym "]"])))
    (hbudget : 1 ≤ s.maxSteps) :
    Answers s ⟨.sym "[" :: (Tokens.listFrame vs ++ [v, .sym "]"]), .list (vs ++ [v]), 1⟩ := by
  have hW : (Token.list (vs ++ [v])).isValue = true := rfl
  -- one pass folds the list, and the list it leaves is a normal form
  have hrun : s.library.reduce s.maxSteps (.sym "[" :: (Tokens.listFrame vs ++ [v, .sym "]"])) =
      (⟨[.list (vs ++ [v])], true⟩,
        ⟨1, #[⟨1, 1, Builtin.listFold.rule.name, 0, [.list (vs ++ [v])]⟩]⟩) := by
    rw [Library.reduce, Library.reduceWith_rewritten (Nat.succ_pos _) (Nat.zero_le _)
      (Library.firing?_close_list hlib hus hvs hv)]
    exact Library.reduceWith_normal (by omega) hbudget (Library.firing?_singleton hlib hus hW)
  refine Answers.of_reduce hprev (List.cons_ne_nil _ _) hW hrun rfl hsealed fun e he _ => ?_
  rw [List.mem_singleton.1 he]
  exact Tokens.sealed_value hW

/-- A part that keeps to itself is reduced in place, after a bracket and
values and separators and before a separator or closer, to its value in its steps. -/
theorem Answers.leads {p : Part} (hp : Answers s p) {pre : List Token} (hpre : Tokens.Opening pre)
    {c : String} (hc : c ∈ closers) (rest : List Token) :
    s.library.Leads s.maxSteps p.steps (pre ++ p.tokens ++ .sym c :: rest)
      (pre ++ [p.value] ++ .sym c :: rest) := by
  intro fuel steps t hsteps hfuel
  obtain ⟨hrun, hcount⟩ := hp.reduce hprev
  -- alone, the part ends the same within what is left of the budget and with the fuel left
  have halone := s.library.reduceWith_of_normal_le _ _ hrun rfl (s.maxSteps - steps) fuel
    (by omega) (by simp only [hcount]; omega)
  obtain ⟨fuel', t', hfuel', heq⟩ :=
    Library.reduceWith_between hlib hus hpre hc rest steps halone hp.sealed hp.confined ⟨steps, t⟩
      (by simp)
  refine ⟨fuel', t', by simp only [hcount] at hfuel'; omega, ?_⟩
  rw [Nat.sub_add_cancel (by omega : steps ≤ s.maxSteps), hcount, Nat.add_comm] at heq
  exact heq

theorem leads_items {ps : List Part} (hps : ∀ p ∈ ps, Answers s p) :
    ∀ {vs : List Token}, (∀ v ∈ vs, v.isValue = true) → ∀ rest : List Token,
      s.library.Leads s.maxSteps (ps.map Part.steps).sum
        (.sym "[" :: (Tokens.listFrame vs ++ (withCommas ps ++ rest)))
        (.sym "[" :: (Tokens.listFrame (vs ++ ps.map Part.value) ++ rest)) := by
  induction ps with
  | nil =>
    intro vs _ rest
    exact (Library.Leads.refl (.sym "[" :: (Tokens.listFrame vs ++ rest))).cast
      (by simp [withCommas]) (by simp) (by simp)
  | cons p ps ih =>
    intro vs hvs rest
    have hp := hps p List.mem_cons_self
    have h₁ := hp.leads hlib hus hprev (.item hvs) (by decide : "," ∈ closers)
      (withCommas ps ++ rest)
    have hvs' : ∀ v ∈ vs ++ [p.value], v.isValue = true := by
      simp only [List.mem_append, List.mem_singleton]
      rintro v (hv | rfl)
      exacts [hvs v hv, hp.value]
    have h₂ := ih (fun q hq => hps q (List.mem_cons_of_mem _ hq)) hvs' rest
    refine (h₁.trans (h₂.cast ?_ rfl rfl)).cast ?_ (by simp) (by simp)
    · simp [Tokens.listFrame_append_singleton]
    · simp [withCommas]

theorem leads_entry {k w : Part} (hk : Answers s k) (hw : Answers s w) {fs : List (Token × Token)}
    (hfs : ∀ f ∈ fs, f.1.isValue = true ∧ f.2.isValue = true) {c : String} (hc : c ∈ closers)
    (rest : List Token) :
    s.library.Leads s.maxSteps (k.steps + w.steps)
      ((.sym "\x7b" :: Tokens.mapFrame fs) ++ k.tokens ++ .sym ":" :: (w.tokens ++ .sym c :: rest))
      ((.sym "\x7b" :: Tokens.mapFrame fs) ++ k.value :: .sym ":" :: w.value :: .sym c :: rest) := by
  have h₁ := hk.leads hlib hus hprev (.key hfs) (by decide : ":" ∈ closers)
    (w.tokens ++ .sym c :: rest)
  have h₂ := hw.leads hlib hus hprev (.value hfs hk.value) hc rest
  exact h₁.trans (h₂.cast (by simp) (by simp) rfl)

theorem leads_entries {es : List (Part × Part)} (hes : ∀ e ∈ es, Answers s e.1 ∧ Answers s e.2) :
    ∀ {fs : List (Token × Token)}, (∀ f ∈ fs, f.1.isValue = true ∧ f.2.isValue = true) →
      ∀ rest : List Token,
      s.library.Leads s.maxSteps (es.map fun e => e.1.steps + e.2.steps).sum
        (.sym "\x7b" :: (Tokens.mapFrame fs ++ (entriesWithCommas es ++ rest)))
        (.sym "\x7b" :: (Tokens.mapFrame (fs ++ es.map fun e => (e.1.value, e.2.value)) ++
          rest)) := by
  induction es with
  | nil =>
    intro fs _ rest
    exact (Library.Leads.refl (.sym "\x7b" :: (Tokens.mapFrame fs ++ rest))).cast
      (by simp [entriesWithCommas]) (by simp) (by simp)
  | cons e es ih =>
    intro fs hfs rest
    obtain ⟨hk, hw⟩ := hes e List.mem_cons_self
    have h₁ := leads_entry hlib hus hprev hk hw hfs (by decide : "," ∈ closers)
      (entriesWithCommas es ++ rest)
    have hfs' : ∀ f ∈ fs ++ [(e.1.value, e.2.value)], f.1.isValue = true ∧ f.2.isValue = true := by
      simp only [List.mem_append, List.mem_singleton]
      rintro f (hf | rfl)
      exacts [hfs f hf, ⟨hk.value, hw.value⟩]
    have h₂ := ih (fun f hf => hes f (List.mem_cons_of_mem _ hf)) hfs' rest
    refine (h₁.trans (h₂.cast ?_ rfl rfl)).cast ?_ (by simp) (by simp)
    · simp [Tokens.mapFrame_append_singleton]
    · simp [entriesWithCommas]

/-- A list of parts leads to the list of their values: the parts one after the other, the
last one before the bracket, then the fold. -/
theorem leads_list {ps : List Part} {e : Part} (hps : ∀ p ∈ ps, Answers s p) (he : Answers s e) :
    s.library.Leads s.maxSteps ((ps.map Part.steps).sum + e.steps + 1) (listTokens ps e)
      [.list (ps.map Part.value ++ [e.value])] := by
  have hvals := values_of_answers hps
  have h₁ := leads_items hlib hus hprev hps (by simp : ∀ v ∈ ([] : List Token), _)
    (e.tokens ++ [.sym "]"])
  have h₂ := he.leads hlib hus hprev (.item hvals) (by decide : "]" ∈ closers) []
  have h₃ : s.library.Leads s.maxSteps 1 _ _ := Library.leads_of_rewritten
    (Library.firing?_close_list hlib hus hvals he.value)
  exact (h₁.trans (h₂.cast (by simp) rfl rfl)).trans (h₃.cast (by simp) rfl rfl) |>.cast
    (by simp [listTokens]) rfl rfl

theorem leads_listTail {ps : List Part} {e t : Part} {L : List Token}
    (hps : ∀ p ∈ ps, Answers s p) (he : Answers s e) (ht : Answers s t) (hL : t.value = .list L) :
    s.library.Leads s.maxSteps ((ps.map Part.steps).sum + e.steps + t.steps + 1)
      (listTailTokens ps e t) [.list (ps.map Part.value ++ [e.value] ++ L)] := by
  have hvals := values_of_answers hps
  have h₁ := leads_items hlib hus hprev hps (by simp : ∀ v ∈ ([] : List Token), _)
    (e.tokens ++ .sym "..." :: (t.tokens ++ [.sym "]"]))
  have h₂ := he.leads hlib hus hprev (.item hvals) (by decide : "..." ∈ closers)
    (t.tokens ++ [.sym "]"])
  have h₃ := ht.leads hlib hus hprev (.tail hvals he.value) (by decide : "]" ∈ closers) []
  have h₄ : s.library.Leads s.maxSteps 1 (.sym "[" :: (Tokens.listFrame (ps.map Part.value) ++
      [e.value, .sym "...", .list L, .sym "]"])) _ :=
    Library.leads_of_rewritten (Library.firing?_close_tail hlib hus hvals he.value)
  exact ((h₁.trans (h₂.cast (by simp) rfl rfl)).trans (h₃.cast (by simp) rfl rfl)).trans
    (h₄.cast (by simp [hL]) rfl rfl) |>.cast (by simp [listTailTokens]) rfl rfl

theorem leads_map {es : List (Part × Part)} {k w : Part}
    (hes : ∀ e ∈ es, Answers s e.1 ∧ Answers s e.2) (hk : Answers s k) (hw : Answers s w) :
    s.library.Leads s.maxSteps ((es.map fun e => e.1.steps + e.2.steps).sum + k.steps + w.steps + 1)
      (mapTokens es k w)
      [.map (Entries.build (es.map (fun e => (e.1.value, e.2.value)) ++ [(k.value, w.value)]))] := by
  have hvals := values_of_entries hes
  have h₁ := leads_entries hlib hus hprev hes
    (by simp : ∀ f ∈ ([] : List (Token × Token)), _) (k.tokens ++ .sym ":" :: (w.tokens ++
      [.sym "\x7d"]))
  have h₂ := leads_entry hlib hus hprev hk hw hvals (by decide : "\x7d" ∈ closers) []
  have h₃ : s.library.Leads s.maxSteps 1 _ _ :=
    Library.leads_of_rewritten (Library.firing?_close_map hlib hus hvals hk.value hw.value)
  exact (h₁.trans (h₂.cast (by simp) rfl rfl)).trans (h₃.cast (by simp) rfl rfl) |>.cast
    (by simp [mapTokens]) rfl (by omega)

theorem evaluate_of_leads {ts : List Token} (hne : ts ≠ []) {k : Nat} {W : Token}
    (hW : W.isValue = true) (h : s.library.Leads s.maxSteps k ts [W]) (hk : k ≤ s.maxSteps) :
    (s.evaluate ts).1.result = .ok [W] ∧ (s.evaluate ts).2.steps = k := by
  obtain ⟨hres, hsteps⟩ := Library.reduce_of_leads h hk (Library.firing?_singleton hlib hus hW)
  rw [← Arith.continuing_of_previous_nil hprev ts] at hres hsteps
  exact ⟨(Session.evaluate_ok_iff s hne _).2 hres, by rw [Session.steps_evaluate s hne, hsteps]⟩

end Parts

/-- Let a session without a previous answer
have the built-in rules and then user rules compiled from definitions, each with a template of at
least two tokens and no comma or colon, and let it answer each part alone by a value, the part
keeping to itself. Then, within the budget, a list `[ e1 , ... , en ]` is answered by the list of
the values after the parts' steps and one more; a list `[ e1 , ... , en ... et ]` whose tail is
answered by a list `L`, by the values in front of `L`; and a map `{ k1 : w1 , ... , km : wm }` by
the map of the values, a later key overriding an earlier equal one. -/
theorem evaluate_parts (s : Session) {us : List Rule} (hlib : s.library.rules = Builtin.rules ++ us)
    (hus : ∀ u ∈ us, (∃ pat repl, Rule.compile pat repl = .ok u) ∧ 2 ≤ u.template.length ∧
      Token.sym "," ∉ u.template ∧ Token.sym ":" ∉ u.template)
    (hprev : s.previous = []) :
    (∀ (ps : List Part) (e : Part), (∀ p ∈ ps, Answers s p) → Answers s e →
      (ps.map Part.steps).sum + e.steps + 1 ≤ s.maxSteps →
      (s.evaluate (listTokens ps e)).1.result = .ok [.list (ps.map Part.value ++ [e.value])] ∧
        (s.evaluate (listTokens ps e)).2.steps = (ps.map Part.steps).sum + e.steps + 1) ∧
    (∀ (ps : List Part) (e t : Part) (L : List Token), (∀ p ∈ ps, Answers s p) → Answers s e →
      Answers s t → t.value = .list L →
      (ps.map Part.steps).sum + e.steps + t.steps + 1 ≤ s.maxSteps →
      (s.evaluate (listTailTokens ps e t)).1.result =
          .ok [.list (ps.map Part.value ++ [e.value] ++ L)] ∧
        (s.evaluate (listTailTokens ps e t)).2.steps =
          (ps.map Part.steps).sum + e.steps + t.steps + 1) ∧
    (∀ (es : List (Part × Part)) (k w : Part), (∀ e ∈ es, Answers s e.1 ∧ Answers s e.2) →
      Answers s k → Answers s w →
      (es.map fun e => e.1.steps + e.2.steps).sum + k.steps + w.steps + 1 ≤ s.maxSteps →
      (s.evaluate (mapTokens es k w)).1.result = .ok [.map (Entries.build
          (es.map (fun e => (e.1.value, e.2.value)) ++ [(k.value, w.value)]))] ∧
        (s.evaluate (mapTokens es k w)).2.steps =
          (es.map fun e => e.1.steps + e.2.steps).sum + k.steps + w.steps + 1) := by
  have hsafe : ∀ u ∈ us, u.ListSafe := fun u hu =>
    have ⟨⟨_, _, hc⟩, hlong, hcomma, hcolon⟩ := hus u hu
    Rule.listSafe_of_compile hc hlong hcomma hcolon
  exact ⟨fun ps e hps he hbudget => evaluate_of_leads hlib hsafe hprev (by simp [listTokens]) rfl
      (leads_list hlib hsafe hprev hps he) hbudget,
    fun ps e t L hps he ht hL hbudget => evaluate_of_leads hlib hsafe hprev
      (by simp [listTailTokens]) rfl (leads_listTail hlib hsafe hprev hps he ht hL) hbudget,
    fun es k w hes hk hw hbudget => evaluate_of_leads hlib hsafe hprev (by simp [mapTokens]) rfl
      (leads_map hlib hsafe hprev hes hk hw) hbudget⟩

/-- In a fresh session of the built-in rules, `[ [ 4 ] , 5 ]` is answered by `[[4], 5]`,
`[ 5 ... [ 4 ] ]` by `[5, 4]` and `{ 5 : [ 4 ] }` by `{5: [4]}`, each after two steps: one that
folds the inner list and one that folds the outer bracket. -/
theorem evaluate_parts_nested :
    let s := Session.build []
    let four : Part := ⟨[.sym "[", .num (.exact 4), .sym "]"], .list [.num (.exact 4)], 1⟩
    let five : Part := ⟨[.num (.exact 5)], .num (.exact 5), 0⟩
    ((s.evaluate (listTokens [four] five)).1.result =
        .ok [.list [.list [.num (.exact 4)], .num (.exact 5)]] ∧
      (s.evaluate (listTokens [four] five)).2.steps = 2) ∧
    ((s.evaluate (listTailTokens [] five four)).1.result =
        .ok [.list [.num (.exact 5), .num (.exact 4)]] ∧
      (s.evaluate (listTailTokens [] five four)).2.steps = 2) ∧
    ((s.evaluate (mapTokens [] five four)).1.result =
        .ok [.map (Entries.build [(.num (.exact 5), .list [.num (.exact 4)])])] ∧
      (s.evaluate (mapTokens [] five four)).2.steps = 2) := by
  intro s four five
  have hlib : s.library.rules = Builtin.rules ++ [] := by simp [s, Session.build, Session.draft]
  have hnil : ∀ u ∈ ([] : List Rule), u.ListSafe := by simp
  have hfive : Answers s five := answers_value hlib hnil rfl rfl
  have hfour : Answers s four :=
    answers_closed_list hlib hnil rfl (by simp : ∀ u ∈ ([] : List Token), u.isValue = true) rfl
      (by decide) (by decide)
  obtain ⟨hl, ht, hm⟩ := evaluate_parts s hlib (by simp) rfl
  exact ⟨hl [four] five (by simpa using hfour) hfive (by decide),
    ht [] five four [.num (.exact 4)] (by simp) hfive hfour rfl (by decide),
    hm [] five four (by simp) hfive hfour (by decide)⟩

end Nested

end Reckon

