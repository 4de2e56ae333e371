import Reckon.Proofs.Reduction.Budget

/-!
# The step numbers of a reduction

The rule applications of a reduction form a forest: the applications nested in a user rule's
application are those of the reduction of its body (`Library.Runs`). The record of a reduction
lists this forest in postorder, since a user rule's entry is written once the reduction of its
body is over, but it numbers the forest in preorder, since a user rule is charged its step as
that reduction starts.

So on every reduction that ends in a normal form, the step numbers read in preorder are
`1, 2, …` up to the step count (`Library.reduce_numbers`): every number is recorded once, and
the applications nested in one are numbered right after it, one after the other
(`Forest.nested_numbered`). The depth recorded with an application is one more than its depth
in the forest. A call with step dumping on reports exactly this record
(`Session.evaluate_numbers_preorder`).
-/

namespace Reckon

/-- A forest of rule applications, each labelled with its record: empty, or a first application
with the forest of the applications nested in it, followed by the applications after it. -/
inductive Forest where
  | nil
  | cons (entry : TraceEntry) (nested rest : Forest)

namespace Forest

/-- The records in preorder: each application before the ones nested in it. -/
def preorder : Forest → List TraceEntry
  | nil => []
  | cons e c r => e :: c.preorder ++ r.preorder

/-- The records in postorder: each application after the ones nested in it. -/
def postorder : Forest → List TraceEntry
  | nil => []
  | cons e c r => c.postorder ++ e :: r.postorder

/-- The number of applications. -/
def size : Forest → Nat
  | nil => 0
  | cons _ c r => c.size + r.size + 1

/-- Every application of the forest satisfies `P`, together with the forest nested in it. -/
def All (P : TraceEntry → Forest → Prop) : Forest → Prop
  | nil => True
  | cons e c r => P e c ∧ c.All P ∧ r.All P

/-- The recorded depth of each root is `d`, and that of a nested application one more than that
of the application it is nested in. -/
def DepthsFrom : Nat → Forest → Prop
  | _, nil => True
  | d, cons e c r => e.depth = d ∧ c.DepthsFrom (d + 1) ∧ r.DepthsFrom d

@[simp] theorem length_preorder (F : Forest) : F.preorder.length = F.size := by
  induction F with
  | nil => rfl
  | cons e c r ihc ihr => simp [preorder, size, ihc, ihr]

theorem range'_node (a m k : Nat) :
    a :: (List.range' (a + 1) m ++ List.range' (a + 1 + m) k) = List.range' a (m + k + 1) := by
  rw [List.range'_succ, ← List.range'_append, Nat.one_mul]

theorem preorder_perm_postorder (F : Forest) : F.preorder.Perm F.postorder := by
  induction F with
  | nil => exact .nil
  | cons e c r ihc ihr =>
    calc List.Perm (e :: (c.preorder ++ r.preorder)) (e :: (c.postorder ++ r.postorder)) :=
          (ihc.append ihr).cons e
      List.Perm _ (c.postorder ++ e :: r.postorder) := List.perm_middle.symm

/-- Where the preorder numbers of a
forest run from `a` on, the applications nested in each application are numbered right after
it, one after the other. -/
theorem nested_numbered {F : Forest} {a : Nat}
    (h : F.preorder.map TraceEntry.step = List.range' a F.size) :
    F.All fun e c => c.preorder.map TraceEntry.step = List.range' (e.step + 1) c.size := by
  induction F generalizing a with
  | nil => trivial
  | cons e c r ihc ihr =>
    -- the numbers split as the application, then its nested ones, then the ones after it
    rw [preorder, size, ← range'_node, List.map_append, List.map_cons, List.cons_append,
      List.cons.injEq] at h
    obtain ⟨he, hrest⟩ := h
    obtain ⟨hc, hr⟩ := List.append_inj hrest (by simp)
    rw [← he] at hc
    exact ⟨hc, ihc hc, ihr hr⟩

end Forest

namespace Library

/-- `lib.Runs ws F out`: reducing `ws` applies the rules of the forest `F` and ends in the normal
form `out`. Each application is labelled with the rule's name, the position and the workspace
after the rewrite; the applications nested in a user rule's are those of reducing its body. The
step and depth of each label are left open: what a reduction records there is the subject of
`reduceWith_numbers`. -/
inductive Runs (lib : Library) : List Token → Forest → List Token → Prop
  | normal {ws : List Token} : lib.firing? ws = none → Runs lib ws .nil ws
  | rewritten {ws ws' out : List Token} {r : Rule} {pos n d : Nat} {F : Forest} :
      lib.firing? ws = some (.rewritten r pos ws') → Runs lib ws' F out →
      Runs lib ws (.cons ⟨n, d, r.name, pos, ws'⟩ .nil F) out
  | entered {ws body inner out : List Token} {r : Rule} {pos n d : Nat} {C F : Forest} :
      lib.firing? ws = some (.entered r pos body) → Runs lib body C inner →
      Runs lib (Tokens.splice ws pos (pos + r.template.length) inner) F out →
      Runs lib ws
        (.cons ⟨n, d, r.name, pos, Tokens.splice ws pos (pos + r.template.length) inner⟩ C F) out

variable (lib : Library)

/-- A reduction at `depth` that ends in a normal form appends to
its record the postorder of its forest of applications, numbered in preorder from the step after
the ones taken before, with each root recorded at `depth`. -/
theorem reduceWith_numbers {limit fuel depth : Nat} {ws : List Token} {p : Progress}
    (h : (lib.reduceWith limit fuel depth ws p).1.normal = true) :
    ∃ F, lib.Runs ws F (lib.reduceWith limit fuel depth ws p).1.workspace ∧
      (lib.reduceWith limit fuel depth ws p).2.trace.toList = p.trace.toList ++ F.postorder ∧
      F.preorder.map TraceEntry.step = List.range' (p.steps + 1) F.size ∧
      (lib.reduceWith limit fuel depth ws p).2.steps = p.steps + F.size ∧
      F.DepthsFrom depth := by
  fun_induction lib.reduceWith limit fuel depth ws p with
  | case1 | case2 => simp at h
  | case3 fuel depth ws p _ hnone =>
    exact ⟨.nil, .normal hnone, by simp [Forest.postorder], rfl, by simp [Forest.size], trivial⟩
  | case4 fuel depth ws p _ r pos ws' hfire n ih =>
    obtain ⟨F, hrun, htrace, hpre, hsteps, hdepth⟩ := ih h
    refine ⟨.cons ⟨n, depth, r.name, pos, ws'⟩ .nil F, .rewritten hfire hrun, ?_, ?_, ?_,
      ⟨rfl, trivial, hdepth⟩⟩
    · simp [htrace, Forest.postorder]
    · simp [Forest.preorder, Forest.size, hpre, n, List.range'_succ]
    · simp only [hsteps, Forest.size, n]
      omega
  | case5 fuel depth ws p _ r pos body hfire n inner q hinner hnormal ws' ihInner ih =>
    -- the nested reduction is numbered from the step the rule was charged, and the passes after
    -- it from the step where the nested one stopped
    rw [hinner] at ihInner
    obtain ⟨C, hrunC, htraceC, hpreC, hstepsC, hdepthC⟩ := ihInner hnormal
    obtain ⟨F, hrun, htrace, hpre, hsteps, hdepth⟩ := ih h
    simp only at htraceC hpreC hstepsC htrace hpre hsteps
    refine ⟨.cons ⟨n, depth, r.name, pos, ws'⟩ C F, .entered hfire hrunC hrun, ?_, ?_, ?_,
      ⟨rfl, hdepthC, hdepth⟩⟩
    · simp [htrace, htraceC, Forest.postorder]
    · rw [Forest.preorder, Forest.size, ← Forest.range'_node, List.map_append, List.map_cons,
        List.cons_append, hpreC, hpre, hstepsC]
      simp only [n, Nat.add_right_comm _ C.size 1]
    · rw [hsteps, hstepsC]
      simp only [Forest.size, n]
      omega
  | case6 => simp at h

theorem reduce_numbers {limit : Nat} {ws : List Token} (h : (lib.reduce limit ws).1.normal = true) :
    ∃ F, lib.Runs ws F (lib.reduce limit ws).1.workspace ∧
      (lib.reduce limit ws).2.trace.toList = F.postorder ∧
      (lib.reduce limit ws).2.steps = F.size ∧
      F.preorder.map TraceEntry.step = List.range' 1 F.size ∧ F.DepthsFrom 1 := by
  rw [reduce] at h ⊢
  obtain ⟨F, hrun, htrace, hpre, hsteps, hdepth⟩ := lib.reduceWith_numbers h
  exact ⟨F, hrun, by simpa using htrace, by simpa using hsteps, by simpa using hpre, hdepth⟩

end Library

namespace Session

/-- A call with step dumping on that
answers reports one step per application of its forest of rule applications, in postorder. The
step numbers read in preorder are `1, 2, …` up to the call's step count, so each number is
reported once, and the applications nested in a user rule's application are numbered right after
it, one after the other. The depth reported with an application is its depth in the forest plus
one. -/
theorem evaluate_numbers_preorder (s : Session) (ts : List Token) {out : List Token}
    (hdump : s.dump = true) (hok : (s.evaluate ts).1.result = .ok out) :
    ∃ F, s.library.Runs (s.continuing ts) F out ∧
      (s.evaluate ts).1.events = F.postorder.map .step ∧
      F.preorder.map TraceEntry.step = List.range' 1 (s.evaluate ts).2.steps ∧
      (F.postorder.map TraceEntry.step).Perm (List.range' 1 (s.evaluate ts).2.steps) ∧
      F.All (fun e c => c.preorder.map TraceEntry.step = List.range' (e.step + 1) c.size) ∧
      F.DepthsFrom 1 := by
  -- the preorder numbering gives the other two facts of the numbers
  suffices h : ∃ F, s.library.Runs (s.continuing ts) F out ∧
      (s.evaluate ts).1.events = F.postorder.map .step ∧ (s.evaluate ts).2.steps = F.size ∧
      F.preorder.map TraceEntry.step = List.range' 1 F.size ∧ F.DepthsFrom 1 by
    obtain ⟨F, hrun, hevents, hsteps, hpre, hdepth⟩ := h
    refine ⟨F, hrun, hevents, hsteps ▸ hpre, ?_, Forest.nested_numbered hpre, hdepth⟩
    rw [hsteps, ← hpre]
    exact (F.preorder_perm_postorder.map _).symm
  unfold evaluate at hok ⊢
  split
  · -- empty input answers at once, with no step
    rename_i hempty
    rw [if_pos hempty] at hok
    obtain rfl : ts = [] := List.isEmpty_iff.1 hempty
    obtain rfl : [] = out := by simpa using hok
    exact ⟨.nil, .normal (by simp [continuing, Library.firing?]), rfl, rfl, rfl, trivial⟩
  · rename_i hne
    rw [if_neg hne] at hok
    have hnormal : (s.library.reduce s.maxSteps (s.continuing ts)).1.normal = true := by
      generalize s.library.reduce s.maxSteps (s.continuing ts) = res at hok
      obtain ⟨r, p⟩ := res
      cases hr : r.normal
      · simp [hr] at hok
      · rfl
    obtain ⟨F, hrun, htrace, hsteps, hpre, hdepth⟩ := s.library.reduce_numbers hnormal
    generalize s.library.reduce s.maxSteps (s.continuing ts) = res at hnormal hrun htrace hsteps hok ⊢
    obtain ⟨r, p⟩ := res
    simp only at hnormal hrun htrace hsteps
    simp only [hnormal, if_true, Except.ok.injEq] at hok
    subst hok
    refine ⟨F, hrun, ?_, ?_, hpre, hdepth⟩
    · simp [hnormal, hdump, htrace]
    · simp [hnormal, hsteps]

/-- With step dumping on and the rules `f = g` and `g = 1`, the call on `f` answers `1`, through
an application of `g = 1` nested in one of `f = g`. -/
theorem evaluate_numbers_preorder_nested :
    let s := build [.dump true, .rules [⟨"f = g", [.sym "f"], [], .rewrite [.sym "g"]⟩,
      ⟨"g = 1", [.sym "g"], [], .rewrite [.num (.exact 1)]⟩]]
    s.dump = true ∧ (s.evaluate [.sym "f"]).1.result = .ok [.num (.exact 1)] ∧
      ∃ F, s.library.Runs (s.continuing [.sym "f"]) F [.num (.exact 1)] ∧
        (s.evaluate [.sym "f"]).1.events = F.postorder.map .step ∧
        F.preorder.map TraceEntry.step = List.range' 1 (s.evaluate [.sym "f"]).2.steps ∧
        (F.postorder.map TraceEntry.step).Perm (List.range' 1 (s.evaluate [.sym "f"]).2.steps) ∧
        F.All (fun e c => c.preorder.map TraceEntry.step = List.range' (e.step + 1) c.size) ∧
        F.DepthsFrom 1 := by
  intro s
  have hok : (s.evaluate [.sym "f"]).1.result = .ok [.num (.exact 1)] := by
    set_option maxRecDepth 8192 in with_unfolding_all rfl
  exact ⟨rfl, hok, evaluate_numbers_preorder s [.sym "f"] rfl hok⟩

end Session

end Reckon
