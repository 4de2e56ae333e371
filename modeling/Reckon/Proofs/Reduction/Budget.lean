import Reckon.Session.Basic

/-!
# The step budget

A reduction is checked against its budget at the start of every pass, and every pass that
rewrites charges a step before the next check. So a reduction always ends in one of two ways
(`Library.reduce_withinBudget`): in a normal form after at most `limit` steps, or abandoned
exactly when the count reaches `limit + 1`. The fuel of `limit + 2` passes never runs out
first: along any chain of passes the count rises by one per pass.

A reduction that ends in a normal form never looked at its budget except to pass it, so a
larger budget repeats it step for step (`Library.reduce_of_normal`). For a session this says
that a call that answers under one budget answers the same under every larger budget, with
the same step count, and a call that fails under a budget fails under every smaller one.

Where the workspaces of a reduction stand for the states of a chain that shrinks by one at every
link, such as the trees of a term reduced one node at a time, the reduction follows the chain to
its end in one step per link (`Library.reduceWith_chain`).
-/

namespace Reckon

/-- A reduction ended within the budget `limit`: in a normal form after at most `limit` steps,
or abandoned with the step count one past the limit. -/
def WithinBudget (limit : Nat) (r : Reduced × Progress) : Prop :=
  (r.1.normal = true ∧ r.2.steps ≤ limit) ∨ (r.1.normal = false ∧ r.2.steps = limit + 1)

namespace Library

variable (lib : Library)

theorem steps_le_reduceWith (limit fuel depth : Nat) (ws : List Token) (p : Progress) :
    p.steps ≤ (lib.reduceWith limit fuel depth ws p).2.steps := by
  fun_induction lib.reduceWith limit fuel depth ws p with
  | case1 | case2 | case3 => exact Nat.le_refl _
  | case4 fuel depth ws p _ r pos ws' _ n ih =>
    exact Nat.le_trans (Nat.le_succ _) ih
  | case5 fuel depth ws p _ r pos body _ n inner q hinner _ ws' ihInner ih =>
    -- the nested reduction counts on from the step it was charged, and the pass after it on
    -- from where the nested one stopped
    rw [hinner] at ihInner
    exact Nat.le_trans (Nat.le_succ _) (Nat.le_trans ihInner ih)
  | case6 fuel depth ws p _ r pos body _ n inner q hinner _ ihInner =>
    rw [hinner] at ihInner
    exact Nat.le_trans (Nat.le_succ _) ihInner

theorem reduceWith_withinBudget (limit fuel depth : Nat) (ws : List Token) (p : Progress)
    (hsteps : p.steps ≤ limit + 1) (hfuel : limit + 2 ≤ p.steps + fuel) :
    WithinBudget limit (lib.reduceWith limit fuel depth ws p) := by
  fun_induction lib.reduceWith limit fuel depth ws p with
  | case1 => omega
  | case2 fuel depth ws p hover => exact .inr ⟨rfl, show p.steps = limit + 1 by omega⟩
  | case3 fuel depth ws p hunder _ => exact .inl ⟨rfl, show p.steps ≤ limit by omega⟩
  | case4 fuel depth ws p hunder r pos ws' _ n ih =>
    exact ih (by simp only [n]; omega) (by simp only [n]; omega)
  | case5 fuel depth ws p hunder r pos body _ n inner q hinner hnormal ws' ihInner ih =>
    -- the nested reduction ended in a normal form, so within the limit and past its start
    have hq : WithinBudget limit (inner, q) := hinner ▸ ihInner (by simp only [n]; omega)
      (by simp only [n]; omega)
    have hle : n ≤ q.steps := by
      have := lib.steps_le_reduceWith limit fuel (depth + 1) body ⟨n, p.trace⟩
      rw [hinner] at this
      exact this
    have hqLimit : q.steps ≤ limit := by
      rcases hq with ⟨-, h⟩ | ⟨h, -⟩
      · exact h
      · exact absurd hnormal (by simpa using h)
    exact ih (by simp only; omega) (by simp only [n] at hle ⊢; omega)
  | case6 fuel depth ws p hunder r pos body _ n inner q hinner hnormal ihInner =>
    have hq : WithinBudget limit (inner, q) := hinner ▸ ihInner (by simp only [n]; omega)
      (by simp only [n]; omega)
    rcases hq with ⟨h, -⟩ | ⟨-, h⟩
    · exact absurd h hnormal
    · exact .inr ⟨rfl, h⟩

theorem reduce_withinBudget (limit : Nat) (ws : List Token) :
    WithinBudget limit (lib.reduce limit ws) :=
  lib.reduceWith_withinBudget limit (limit + 2) 1 ws {} (Nat.zero_le _) (by simp)

theorem reduceWith_of_normal {limit fuel depth : Nat} {ws : List Token} {p : Progress}
    (h : (lib.reduceWith limit fuel depth ws p).1.normal = true) {limit' : Nat}
    (hlimit : limit ≤ limit') :
    ∀ fuel', fuel ≤ fuel' →
      lib.reduceWith limit' fuel' depth ws p = lib.reduceWith limit fuel depth ws p := by
  fun_induction lib.reduceWith limit fuel depth ws p with
  | case1 => simp at h
  | case2 => simp at h
  | case3 fuel depth ws p hunder hnone =>
    intro fuel' hfuel
    obtain ⟨fuel', rfl⟩ : ∃ g, fuel' = g + 1 := ⟨fuel' - 1, by omega⟩
    rw [reduceWith, if_neg (by omega), hnone]
  | case4 fuel depth ws p hunder r pos ws' hfire n ih =>
    intro fuel' hfuel
    obtain ⟨fuel', rfl⟩ : ∃ g, fuel' = g + 1 := ⟨fuel' - 1, by omega⟩
    rw [reduceWith, if_neg (by omega), hfire]
    exact ih h fuel' (by omega)
  | case5 fuel depth ws p hunder r pos body hfire n inner q hinner hnormal ws' ihInner ih =>
    intro fuel' hfuel
    obtain ⟨fuel', rfl⟩ : ∃ g, fuel' = g + 1 := ⟨fuel' - 1, by omega⟩
    -- the nested reduction ended in a normal form too, so it is repeated first
    have hsame := ihInner (by rw [hinner]; exact hnormal) fuel' (by omega)
    rw [reduceWith, if_neg (by omega), hfire]
    simp only
    rw [hsame, hinner]
    simp only [hnormal, if_true]
    exact ih h fuel' (by omega)
  | case6 => simp at h

theorem reduceWith_of_normal_le {limit fuel depth : Nat} {ws : List Token} {p : Progress} :
    ∀ (r : Reduced) (q : Progress), lib.reduceWith limit fuel depth ws p = (r, q) →
      r.normal = true → ∀ limit' fuel', q.steps ≤ limit' → q.steps - p.steps < fuel' →
        lib.reduceWith limit' fuel' depth ws p = (r, q) := by
  fun_induction lib.reduceWith limit fuel depth ws p with
  | case1 | case2 =>
    intro r q h hr
    rw [← (Prod.mk.inj h).1] at hr
    cases hr
  | case3 fuel depth ws p hunder hnone =>
    intro r q h _ limit' fuel' hlimit hfuel
    obtain ⟨rfl, rfl⟩ := Prod.mk.inj h
    obtain ⟨g, rfl⟩ : ∃ g, fuel' = g + 1 := ⟨fuel' - 1, by omega⟩
    rw [reduceWith, if_neg (by omega), hnone]
  | case4 fuel depth ws p hunder r pos ws' hfire n ih =>
    intro r' q h hr limit' fuel' hlimit hfuel
    have hle := lib.steps_le_reduceWith limit fuel depth ws'
      ⟨n, p.trace.push ⟨n, depth, r.name, pos, ws'⟩⟩
    rw [h] at hle
    simp only [n] at hle
    obtain ⟨g, rfl⟩ : ∃ g, fuel' = g + 1 := ⟨fuel' - 1, by omega⟩
    rw [reduceWith, if_neg (by omega), hfire]
    exact ih r' q h hr limit' g hlimit (by simp only; omega)
  | case5 fuel depth ws p hunder r pos body hfire n inner q hinner hnormal ws' ihInner ih =>
    intro r' q' h hr limit' fuel' hlimit hfuel
    -- the nested reduction counts from the step it was charged up to where the pass goes on
    have hin := lib.steps_le_reduceWith limit fuel (depth + 1) body ⟨n, p.trace⟩
    rw [hinner] at hin
    have hout := lib.steps_le_reduceWith limit fuel depth ws'
      ⟨q.steps, q.trace.push ⟨n, depth, r.name, pos, ws'⟩⟩
    rw [h] at hout
    simp only [n] at hin hout
    obtain ⟨g, rfl⟩ : ∃ g, fuel' = g + 1 := ⟨fuel' - 1, by omega⟩
    rw [reduceWith, if_neg (by omega), hfire]
    simp only
    rw [ihInner inner q hinner hnormal limit' g (by omega) (by simp only; omega)]
    simp only [hnormal, if_true]
    exact ih r' q' h hr limit' g hlimit (by simp only; omega)
  | case6 fuel depth ws p hunder r pos body hfire n inner q hinner hnormal ihInner =>
    intro r' q' h hr
    rw [← (Prod.mk.inj h).1] at hr
    cases hr

theorem trace_prefix_reduceWith (limit fuel depth : Nat) (ws : List Token) (p : Progress) :
    p.trace.toList <+: (lib.reduceWith limit fuel depth ws p).2.trace.toList := by
  fun_induction lib.reduceWith limit fuel depth ws p with
  | case1 | case2 | case3 => exact List.prefix_refl _
  | case4 fuel depth ws p _ r pos ws' _ n ih =>
    exact List.IsPrefix.trans (by simp) ih
  | case5 fuel depth ws p _ r pos body _ n inner q hinner _ ws' ihInner ih =>
    rw [hinner] at ihInner
    exact ihInner.trans (List.IsPrefix.trans (by simp) ih)
  | case6 fuel depth ws p _ r pos body _ n inner q hinner _ ihInner =>
    rw [hinner] at ihInner
    exact ihInner

theorem reduce_of_normal {limit limit' : Nat} {ws : List Token}
    (h : (lib.reduce limit ws).1.normal = true) (hlimit : limit ≤ limit') :
    lib.reduce limit' ws = lib.reduce limit ws :=
  lib.reduceWith_of_normal h hlimit _ (by omega)

/-- Let each state `x` stand for the workspace `tokens x`. Where
`next x` is a state, one pass rewrites the workspace of `x` into that of `next x`, which is one
smaller; where it is none, `x` has size zero and no rule fires. The invariant `P` is kept along
the chain. Within the budget and the fuel, the reduction from a state then takes one step per
link and ends normal on the workspace of the chain's last state. -/
theorem reduceWith_chain {β : Type} (tokens : β → List Token) (size : β → Nat)
    (next : β → Option β) (P : β → Prop)
    (hnext : ∀ x x', P x → next x = some x' → P x' ∧ size x' + 1 = size x ∧
      ∃ r pos, lib.firing? (tokens x) = some (.rewritten r pos (tokens x')))
    (hlast : ∀ x, P x → next x = none → size x = 0 ∧ lib.firing? (tokens x) = none)
    (limit fuel depth : Nat) (x : β) (hx : P x) (p : Progress) (hsteps : p.steps + size x ≤ limit)
    (hfuel : size x < fuel) :
    ∃ y, P y ∧ next y = none ∧ (lib.reduceWith limit fuel depth (tokens x) p).1 = ⟨tokens y, true⟩ ∧
      (lib.reduceWith limit fuel depth (tokens x) p).2.steps = p.steps + size x := by
  -- one pass per link, the size going down as the count goes up
  induction fuel generalizing x p with
  | zero => omega
  | succ fuel ih =>
    rw [reduceWith, if_neg (by omega)]
    cases hx' : next x with
    | none =>
      obtain ⟨hzero, hnone⟩ := hlast x hx hx'
      rw [hnone]
      refine ⟨x, hx, hx', rfl, ?_⟩
      dsimp only
      omega
    | some x' =>
      obtain ⟨hPx', hsize, r, pos, hfire⟩ := hnext x x' hx hx'
      rw [hfire]
      obtain ⟨y, hy, hyn, hres, hcount⟩ := ih x' hPx'
        ⟨p.steps + 1, p.trace.push ⟨p.steps + 1, depth, r.name, pos, tokens x'⟩⟩
        (by simp only; omega) (by omega)
      refine ⟨y, hy, hyn, hres, ?_⟩
      rw [hcount]
      dsimp only
      omega

end Library

namespace Session

variable (s : Session) (ts : List Token)

theorem evaluate_withinBudget :
    ((∃ out, (s.evaluate ts).1.result = .ok out) ∧ (s.evaluate ts).2.steps ≤ s.maxSteps) ∨
      ((∃ ws, (s.evaluate ts).1.result = .error (.overBudget (s.maxSteps + 1) s.maxSteps ws)) ∧
        (s.evaluate ts).2.steps = s.maxSteps + 1) := by
  unfold evaluate
  split
  · exact .inl ⟨⟨[], rfl⟩, Nat.zero_le _⟩
  · have hb := s.library.reduce_withinBudget s.maxSteps (s.continuing ts)
    generalize s.library.reduce s.maxSteps (s.continuing ts) = res at hb
    obtain ⟨r, p⟩ := res
    rcases hb with ⟨hnormal, hle⟩ | ⟨hnormal, heq⟩
    · simp only at hnormal hle
      simp only [hnormal, if_true]
      exact .inl ⟨⟨r.workspace, rfl⟩, hle⟩
    · simp only at hnormal heq
      simp only [hnormal, Bool.false_eq_true, if_false]
      exact .inr ⟨⟨r.workspace, by rw [heq]⟩, heq⟩

theorem evaluate_raise_budget {limit : Nat} (hlimit : s.maxSteps ≤ limit)
    (hok : ∃ out, (s.evaluate ts).1.result = .ok out) :
    ({ s with maxSteps := limit }.evaluate ts).1 = (s.evaluate ts).1 ∧
      ({ s with maxSteps := limit }.evaluate ts).2.steps = (s.evaluate ts).2.steps := by
  unfold evaluate at hok ⊢
  split
  · exact ⟨rfl, rfl⟩
  · -- the budget plays no part in the input the reduction starts from
    have hcont : ({ s with maxSteps := limit } : Session).continuing ts = s.continuing ts := rfl
    simp only [hcont]
    split at hok
    · contradiction
    · have hnormal : (s.library.reduce s.maxSteps (s.continuing ts)).1.normal = true := by
        generalize s.library.reduce s.maxSteps (s.continuing ts) = res at hok
        obtain ⟨r, p⟩ := res
        cases hr : r.normal
        · simp [hr] at hok
        · rfl
      rw [s.library.reduce_of_normal hnormal hlimit]
      simp only [hnormal, if_true, and_self]

/-- Every call ends within the session's budget, in an answer or in the budget error one step
past it, and an answer under one budget is the same answer, after the same steps, under every
larger budget. -/
theorem evaluate_respects_budget :
    (((∃ out, (s.evaluate ts).1.result = .ok out) ∧ (s.evaluate ts).2.steps ≤ s.maxSteps) ∨
      ((∃ ws, (s.evaluate ts).1.result = .error (.overBudget (s.maxSteps + 1) s.maxSteps ws)) ∧
        (s.evaluate ts).2.steps = s.maxSteps + 1)) ∧
    ∀ limit, s.maxSteps ≤ limit → (∃ out, (s.evaluate ts).1.result = .ok out) →
      ({ s with maxSteps := limit }.evaluate ts).1 = (s.evaluate ts).1 ∧
        ({ s with maxSteps := limit }.evaluate ts).2.steps = (s.evaluate ts).2.steps :=
  ⟨s.evaluate_withinBudget ts, fun _ hlimit hok => s.evaluate_raise_budget ts hlimit hok⟩

end Session

end Reckon
