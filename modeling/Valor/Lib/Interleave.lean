/-
  Many programs over one world, one operation at a time.

  A thread is a number. A configuration is the shared world and what is left of
  each thread's program. A step picks one thread, performs the first operation of
  its program and keeps the continuation; an operation that has to wait has no
  step. `Run` is a finite sequence of steps with its trace; `schedule` computes
  one from a list of choices (`schedule_run`).

  Rely and guarantee. `Safe` says of one program that each of its operations meets
  the thread's guarantee, whatever steps allowed by its rely came before. It is
  defined by recursion on the program, so that proving it is symbolic execution.
  If the guarantee of each thread is within the rely of every other one, then
  every thread of every run stays `Safe` (`Run.allSafe`) and every step of the run
  meets its guarantee (`AllSafe.step`).
-/
import Mathlib.Logic.Function.Basic
import Valor.Lib.Program

namespace Interleave

open Prog

abbrev Tid := Nat

variable {Op : Type} {Res : Op → Type} {Err α β W Ch : Type}

/-- The world and the rest of every thread's program. -/
structure Config (W Op : Type) (Res : Op → Type) (Err α : Type) where
  world : W
  prog : Tid → Prog Op Res Err α

/-- A step of a run: who performed what, with which answer. -/
structure Label (Op : Type) (Res : Op → Type) (Err : Type) where
  tid : Tid
  event : Event Op Res Err

/-- How one operation of thread `i` acts on the world under the choice `ch` of
    whatever the world decides; `none` when the operation has to wait. -/
abbrev Exec (W Op : Type) (Res : Op → Type) (Err Ch : Type) : Type :=
  Ch → Tid → (op : Op) → W → Option (Except Err (Res op) × W)

variable (exec : Exec W Op Res Err Ch)

inductive Step : Config W Op Res Err α → Label Op Res Err → Config W Op Res Err α → Prop
  | mk {c : Config W Op Res Err α} {i : Tid} {op : Op}
      {k : Except Err (Res op) → Prog Op Res Err α} {ch : Ch}
      {r : Except Err (Res op)} {w' : W}
      (hprog : c.prog i = .call op k) (hexec : exec ch i op c.world = some (r, w')) :
      Step c ⟨i, ⟨op, r⟩⟩ ⟨w', Function.update c.prog i (k r)⟩

inductive Run : Config W Op Res Err α → List (Label Op Res Err) → Config W Op Res Err α → Prop
  | nil (c) : Run c [] c
  | snoc {c c' c'' : Config W Op Res Err α} {tr l} (init : Run c tr c')
      (step : Step exec c' l c'') : Run c (tr ++ [l]) c''

/-- The trace and the configuration after the listed choices, if each can be taken. -/
def schedule (c : Config W Op Res Err α) :
    List (Tid × Ch) → Option (List (Label Op Res Err) × Config W Op Res Err α)
  | [] => some ([], c)
  | (i, ch) :: rest =>
      match c.prog i with
      | .call op k =>
          match exec ch i op c.world with
          | some (r, w') =>
              (schedule ⟨w', Function.update c.prog i (k r)⟩ rest).map fun (tr, c') =>
                (⟨i, ⟨op, r⟩⟩ :: tr, c')
          | none => none
      | _ => none

variable {exec}

theorem Run.cons {c c' c'' : Config W Op Res Err α} {l : Label Op Res Err} {tr} (step : Step exec c l c')
    (rest : Run exec c' tr c'') : Run exec c (l :: tr) c'' := by
  induction rest with
  | nil => exact .snoc (.nil _) step
  | snoc _ hs ih => exact .snoc ih hs

theorem Run.append {c c' c'' : Config W Op Res Err α} {tr tr'} (h : Run exec c tr c')
    (h' : Run exec c' tr' c'') : Run exec c (tr ++ tr') c'' := by
  induction h' with
  | nil => simpa using h
  | snoc _ hs ih =>
    rw [← List.append_assoc]
    exact .snoc ih hs

theorem schedule_run {c c' : Config W Op Res Err α} {tr} {s : List (Tid × Ch)}
    (h : schedule exec c s = some (tr, c')) : Run exec c tr c' := by
  induction s generalizing c tr with
  | nil =>
    obtain ⟨rfl, rfl⟩ : [] = tr ∧ c = c' := by simpa [schedule] using h
    exact .nil c
  | cons choice rest ih =>
    obtain ⟨i, ch⟩ := choice
    unfold schedule at h
    split at h
    · next op k hprog =>
      split at h
      · next r w' hexec =>
        obtain ⟨⟨tr', c''⟩, hrest, he⟩ := Option.map_eq_some_iff.mp h
        obtain ⟨rfl, rfl⟩ : (⟨i, ⟨op, r⟩⟩ : Label Op Res Err) :: tr' = tr ∧ c'' = c' := by
          simpa using he
        exact (ih hrest).cons (.mk hprog hexec)
      · cases h
    · cases h

/-- A run computed by `schedule` that passes a test. -/
theorem schedule_any (exec : Exec W Op Res Err Ch) (c : Config W Op Res Err α)
    (s : List (Tid × Ch)) (test : List (Label Op Res Err) × Config W Op Res Err α → Bool)
    (h : (schedule exec c s).any test = true) :
    ∃ tr c', Run exec c tr c' ∧ test (tr, c') = true := by
  obtain ⟨⟨tr, c'⟩, hc', ht⟩ := (Option.any_eq_true ..).mp h
  exact ⟨tr, c', schedule_run hc', ht⟩

/-! ## Rely and guarantee -/

section RelyGuarantee

/-- What the other threads may do to the world between two operations of this one. -/
abbrev Rely (W : Type) : Type := W → W → Prop

/-- What one operation of this thread does to the world. -/
abbrev Guarantee (W Op : Type) (Res : Op → Type) (Err : Type) : Type :=
  (op : Op) → Except Err (Res op) → W → W → Prop

variable (exec) (inv : W → Prop)

/-- Every operation of the program of thread `i` meets `G`, and its outcome meets
    `Q`, if between its operations the world only changes as `R` allows. -/
inductive Safe (R : Rely W) (G : Guarantee W Op Res Err) (i : Tid)
    (Q : Except Err α → W → Prop) : Prog Op Res Err α → W → Prop
  | ret {a w} (h : Q (.ok a) w) : Safe R G i Q (.ret a) w
  | raise {e w} (h : Q (.error e) w) : Safe R G i Q (.raise e) w
  | call {op k w}
      (guarantee : ∀ w', R w w' → inv w' → ∀ ch r w'', exec ch i op w' = some (r, w'') →
        G op r w' w'')
      (next : ∀ w', R w w' → inv w' → ∀ ch r w'', exec ch i op w' = some (r, w'') →
        Safe R G i Q (k r) w'') : Safe R G i Q (.call op k) w

variable {exec inv}

section Rules

variable {R : Rely W} {G : Guarantee W Op Res Err} {i : Tid} {Q Q' : Except Err α → W → Prop}
  {w w' : W}

theorem safe_ret {a : α} : Safe exec inv R G i Q (.ret a) w ↔ Q (.ok a) w :=
  ⟨fun | .ret h => h, .ret⟩

theorem safe_raise {e : Err} : Safe exec inv R G i Q (.raise e) w ↔ Q (.error e) w :=
  ⟨fun | .raise h => h, .raise⟩

theorem safe_call {op : Op} {k : Except Err (Res op) → Prog Op Res Err α} :
    Safe exec inv R G i Q (.call op k) w ↔ ∀ w', R w w' → inv w' → ∀ ch r w'',
      exec ch i op w' = some (r, w'') → G op r w' w'' ∧ Safe exec inv R G i Q (k r) w'' := by
  constructor
  · rintro (_ | _ | ⟨hG, hk⟩) w' hR hi ch r w'' hx
    exact ⟨hG w' hR hi ch r w'' hx, hk w' hR hi ch r w'' hx⟩
  · intro h
    exact .call (fun w' hR hi ch r w'' hx => (h w' hR hi ch r w'' hx).1)
      fun w' hR hi ch r w'' hx => (h w' hR hi ch r w'' hx).2

theorem Safe.stable (trans : ∀ a b c, R a b → R b c → R a c)
    (hQ : ∀ r a b, Q r a → R a b → Q r b) {p : Prog Op Res Err α}
    (h : Safe exec inv R G i Q p w) (hR : R w w') : Safe exec inv R G i Q p w' := by
  cases p with
  | ret a => exact safe_ret.mpr (hQ _ _ _ (safe_ret.mp h) hR)
  | raise e => exact safe_raise.mpr (hQ _ _ _ (safe_raise.mp h) hR)
  | call op k =>
    exact safe_call.mpr fun v hv hi => safe_call.mp h v (trans _ _ _ hR hv) hi

theorem Safe.mono (hQ : ∀ r w, Q r w → Q' r w) {p : Prog Op Res Err α}
    (h : Safe exec inv R G i Q p w) : Safe exec inv R G i Q' p w := by
  induction p generalizing w with
  | ret a => exact safe_ret.mpr (hQ _ _ (safe_ret.mp h))
  | raise e => exact safe_raise.mpr (hQ _ _ (safe_raise.mp h))
  | call op k ih =>
    refine safe_call.mpr fun w' hR hi ch r w'' hx => ?_
    obtain ⟨hG, hk⟩ := safe_call.mp h w' hR hi ch r w'' hx
    exact ⟨hG, ih r hk⟩

/-- A weaker guarantee. -/
theorem Safe.weaken {G' : Guarantee W Op Res Err} (hG : ∀ op r w w', G op r w w' → G' op r w w')
    {p : Prog Op Res Err α} (h : Safe exec inv R G i Q p w) : Safe exec inv R G' i Q p w := by
  induction p generalizing w with
  | ret a => exact safe_ret.mpr (safe_ret.mp h)
  | raise e => exact safe_raise.mpr (safe_raise.mp h)
  | call op k ih =>
    refine safe_call.mpr fun w' hR hi ch r w'' hx => ?_
    obtain ⟨hmeets, hk⟩ := safe_call.mp h w' hR hi ch r w'' hx
    exact ⟨hG _ _ _ _ hmeets, ih r hk⟩

/-- What holds of a program in two ways holds of it in both. -/
theorem Safe.and {G' : Guarantee W Op Res Err} {Q' : Except Err α → W → Prop} {p : Prog Op Res Err α}
    (h : Safe exec inv R G i Q p w) (h' : Safe exec inv R G' i Q' p w) :
    Safe exec inv R (fun op r w w' => G op r w w' ∧ G' op r w w') i (fun r w => Q r w ∧ Q' r w) p w := by
  induction p generalizing w with
  | ret a => exact safe_ret.mpr ⟨safe_ret.mp h, safe_ret.mp h'⟩
  | raise e => exact safe_raise.mpr ⟨safe_raise.mp h, safe_raise.mp h'⟩
  | call op k ih =>
    refine safe_call.mpr fun w' hR hi ch r w'' hx => ?_
    obtain ⟨hG, hk⟩ := safe_call.mp h w' hR hi ch r w'' hx
    obtain ⟨hG', hk'⟩ := safe_call.mp h' w' hR hi ch r w'' hx
    exact ⟨⟨hG, hG'⟩, ih r hk hk'⟩

/-- Sequencing: the first program ends in worlds from which the second is safe. -/
theorem Safe.bind {Q : Except Err β → W → Prop} {p : Prog Op Res Err α}
    {f : α → Prog Op Res Err β}
    (h : Safe exec inv R G i (fun r v => match r with
      | .ok a => Safe exec inv R G i Q (f a) v
      | .error e => Q (.error e) v) p w) : Safe exec inv R G i Q (p.bind f) w := by
  induction p generalizing w with
  | ret a => exact safe_ret.mp h
  | raise e =>
    have hq := safe_raise.mp h
    exact safe_raise.mpr hq
  | call op k ih =>
    refine safe_call.mpr fun w' hR hi ch r w'' hx => ?_
    obtain ⟨hG, hk⟩ := safe_call.mp h w' hR hi ch r w'' hx
    exact ⟨hG, ih r hk⟩

theorem safe_raiseWhen {c : Prop} [Decidable c] {e : Err} {k : Unit → Prog Op Res Err α}
    (hQ : ∀ e w, Q (.error e) w) (hk : ¬c → Safe exec inv R G i Q (k ()) w) :
    Safe exec inv R G i Q ((raiseWhen c e).bind k) w := by
  unfold raiseWhen
  by_cases hc : c
  · simpa [hc] using safe_raise.mpr (hQ e w)
  · simpa [hc] using hk hc

theorem safe_lift {ε : Type} {g : ε → Err} {x : Except ε β} {k : β → Prog Op Res Err α}
    (hQ : ∀ e w, Q (.error e) w) (hk : ∀ b, x = .ok b → Safe exec inv R G i Q (k b) w) :
    Safe exec inv R G i Q ((lift g x).bind k) w := by
  cases x with
  | ok b => exact hk b rfl
  | error e => exact safe_raise.mpr (hQ (g e) w)

/-- A context manager: the body ends in worlds from which `last` is safe. -/
theorem Safe.andFinally {last : Op} {p : Prog Op Res Err α}
    (h : Safe exec inv R G i (fun r v => ∀ v', R v v' → inv v' → ∀ ch s v'',
      exec ch i last v' = some (s, v'') → G last s v' v'' ∧
        Q (match s with | .ok _ => r | .error e => .error e) v'') p w) :
    Safe exec inv R G i Q (p.andFinally last) w := by
  induction p generalizing w with
  | ret a =>
    refine safe_call.mpr fun w' hR hi ch s w'' hx => ?_
    obtain ⟨hG, hq⟩ := safe_ret.mp h w' hR hi ch s w'' hx
    refine ⟨hG, ?_⟩
    cases s
    · exact safe_raise.mpr hq
    · exact safe_ret.mpr hq
  | raise e =>
    refine safe_call.mpr fun w' hR hi ch s w'' hx => ?_
    obtain ⟨hG, hq⟩ := safe_raise.mp h w' hR hi ch s w'' hx
    refine ⟨hG, ?_⟩
    cases s <;> exact safe_raise.mpr hq
  | call op k ih =>
    refine safe_call.mpr fun w' hR hi ch r w'' hx => ?_
    obtain ⟨hG, hk⟩ := safe_call.mp h w' hR hi ch r w'' hx
    exact ⟨hG, ih r hk⟩

end Rules

/-- The side conditions of the parallel rule: relies compose, outcomes and the world
    invariant survive, and a step that meets its guarantee is within every other rely. -/
structure Compatible (exec : Exec W Op Res Err Ch) (inv : W → Prop) (R : Tid → Rely W)
    (G : Tid → Guarantee W Op Res Err) (Q : Tid → Except Err α → W → Prop) : Prop where
  refl : ∀ i a, R i a a
  trans : ∀ i a b c, R i a b → R i b c → R i a c
  outcome : ∀ i r a b, Q i r a → R i a b → Q i r b
  keeps : ∀ {i ch op r a b}, inv a → exec ch i op a = some (r, b) → G i op r a b → inv b
  within : ∀ {i j ch op r a b}, i ≠ j → inv a → exec ch j op a = some (r, b) → G j op r a b →
    R i a b

variable {R : Tid → Rely W} {G : Tid → Guarantee W Op Res Err}
  {Q : Tid → Except Err α → W → Prop} {c c' : Config W Op Res Err α}
  {l : Label Op Res Err} {tr : List (Label Op Res Err)}

/-- The world invariant holds and every thread is safe. -/
structure AllSafe (exec : Exec W Op Res Err Ch) (inv : W → Prop) (R : Tid → Rely W)
    (G : Tid → Guarantee W Op Res Err) (Q : Tid → Except Err α → W → Prop)
    (c : Config W Op Res Err α) : Prop where
  world : inv c.world
  safe : ∀ i, Safe exec inv (R i) (G i) i (Q i) (c.prog i) c.world

/-- One step of a safe configuration: it meets the guarantee of its thread and
    leaves a safe configuration. -/
theorem AllSafe.step (hc : Compatible exec inv R G Q)
    (h : AllSafe exec inv R G Q c) (hs : Step exec c l c') :
    G l.tid l.event.op l.event.answer c.world c'.world ∧ AllSafe exec inv R G Q c' := by
  cases hs with
  | @mk i op k ch r w' hprog hexec =>
    have hi := h.safe i
    rw [hprog] at hi
    obtain ⟨hG, hk⟩ := safe_call.mp hi c.world (hc.refl i _) h.world ch r w' hexec
    refine ⟨hG, hc.keeps h.world hexec hG, fun j => ?_⟩
    by_cases hj : j = i
    · subst hj
      simpa using hk
    · have hR : R j c.world w' := hc.within hj h.world hexec hG
      have hs : Safe exec inv (R j) (G j) j (Q j) (c.prog j) w' :=
        (h.safe j).stable (hc.trans j) (hc.outcome j) hR
      simpa [Function.update_of_ne hj] using hs

/-- The parallel rule. -/
theorem Run.allSafe (hc : Compatible exec inv R G Q)
    (h : AllSafe exec inv R G Q c) (hr : Run exec c tr c') : AllSafe exec inv R G Q c' := by
  induction hr with
  | nil => exact h
  | snoc _ hs ih => exact (ih.step hc hs).2

end RelyGuarantee

/-! ## The trace as part of the world

  What a step may do can depend on what was read before. A traced world is the world with
  the trace so far, so that an invariant, a rely or a guarantee can mention both. -/

section Traced

/-- `exec`, with every step recorded. -/
def traced (exec : Exec W Op Res Err Ch) : Exec (W × List (Label Op Res Err)) Op Res Err Ch :=
  fun ch i op v => (exec ch i op v.1).map fun (r, w') => (r, (w', v.2 ++ [⟨i, ⟨op, r⟩⟩]))

/-- The configuration with the trace that led to it. -/
def Config.traced (c : Config W Op Res Err α) (tr : List (Label Op Res Err)) :
    Config (W × List (Label Op Res Err)) Op Res Err α :=
  ⟨(c.world, tr), c.prog⟩

variable {exec : Exec W Op Res Err Ch} {ch : Ch} {i : Tid} {op : Op} {r : Except Err (Res op)}
  {c c' : Config W Op Res Err α} {l : Label Op Res Err} {tr tr' : List (Label Op Res Err)}

theorem traced_eq_some {v v' : W × List (Label Op Res Err)} :
    traced exec ch i op v = some (r, v') ↔
      exec ch i op v.1 = some (r, v'.1) ∧ v'.2 = v.2 ++ [⟨i, ⟨op, r⟩⟩] := by
  obtain ⟨w', tr'⟩ := v'
  simp only [traced, Option.map_eq_some_iff, Prod.mk.injEq, Prod.exists]
  constructor
  · rintro ⟨r', w₁, hx, rfl, rfl, rfl⟩
    exact ⟨hx, rfl⟩
  · rintro ⟨hx, rfl⟩
    exact ⟨r, w', hx, rfl, rfl, rfl⟩

theorem Step.traced (h : Step exec c l c') (tr : List (Label Op Res Err)) :
    Step (traced exec) (c.traced tr) l (c'.traced (tr ++ [l])) := by
  cases h with
  | @mk i op k ch r w' hprog hexec =>
    have hx : Interleave.traced exec ch i op (c.world, tr) =
        some (r, (w', tr ++ [⟨i, ⟨op, r⟩⟩])) := traced_eq_some.mpr ⟨hexec, rfl⟩
    exact .mk hprog hx

theorem Run.traced (h : Run exec c tr c') : Run (traced exec) (c.traced []) tr (c'.traced tr) := by
  induction h with
  | nil => exact .nil _
  | snoc _ hs ih => exact ih.snoc (hs.traced _)

variable {inv : W → Prop} {R : Rely W} {G : Guarantee W Op Res Err} {Q : Except Err α → W → Prop}

/-- Where the trace is not mentioned, nothing is gained by recording it. -/
theorem safe_traced {p : Prog Op Res Err α} {w : W} (tr : List (Label Op Res Err)) :
    Safe (traced exec) (fun v => inv v.1) (fun v v' => R v.1 v'.1) (fun op r v v' => G op r v.1 v'.1)
      i (fun r v => Q r v.1) p (w, tr) ↔ Safe exec inv R G i Q p w := by
  induction p generalizing w tr with
  | ret a => rw [safe_ret, safe_ret]
  | raise e => rw [safe_raise, safe_raise]
  | call op k ih =>
    rw [safe_call, safe_call]
    constructor
    · intro h w' hR hi ch r w'' hx
      obtain ⟨hG, hk⟩ := h (w', tr) hR hi ch r (w'', _) (traced_eq_some.mpr ⟨hx, rfl⟩)
      exact ⟨hG, (ih r _).mp hk⟩
    · intro h v' hR hi ch r v'' hx
      obtain ⟨hG, hk⟩ := h v'.1 hR hi ch r v''.1 (traced_eq_some.mp hx).1
      exact ⟨hG, (ih r _).mpr hk⟩

end Traced

/-! ## Runs whose steps meet a condition -/

/-- A run that goes on from the configuration `c₀` after the trace `tr₀`; every step `l`, taken
    after the trace `tr` from `c` to `c'`, satisfies `ok tr c l c'`. -/
inductive RunWhere (exec : Exec W Op Res Err Ch)
    (ok : List (Label Op Res Err) → Config W Op Res Err α → Label Op Res Err →
      Config W Op Res Err α → Prop)
    (tr₀ : List (Label Op Res Err)) (c₀ : Config W Op Res Err α) :
    List (Label Op Res Err) → Config W Op Res Err α → Prop
  | nil : RunWhere exec ok tr₀ c₀ tr₀ c₀
  | snoc {tr c l c'} (init : RunWhere exec ok tr₀ c₀ tr c) (step : Step exec c l c')
      (meets : ok tr c l c') : RunWhere exec ok tr₀ c₀ (tr ++ [l]) c'

section RunWhere

variable {exec : Exec W Op Res Err Ch}
  {ok ok' : List (Label Op Res Err) → Config W Op Res Err α → Label Op Res Err →
    Config W Op Res Err α → Prop}
  {c₀ c c' : Config W Op Res Err α} {tr₀ tr tr' : List (Label Op Res Err)}

theorem RunWhere.run (h : RunWhere exec ok [] c tr c') : Run exec c tr c' := by
  induction h with
  | nil => exact .nil _
  | snoc _ hs _ ih => exact ih.snoc hs

theorem RunWhere.trans (h : RunWhere exec ok tr₀ c₀ tr c) (h' : RunWhere exec ok tr c tr' c') :
    RunWhere exec ok tr₀ c₀ tr' c' := by
  induction h' with
  | nil => exact h
  | snoc _ hs hok ih => exact ih.snoc hs hok

/-- Every step of such a run meets the condition. -/
theorem RunWhere.at {tr₁ tr₂ : List (Label Op Res Err)} {l : Label Op Res Err}
    (h : RunWhere exec ok [] c₀ (tr₁ ++ l :: tr₂) c) : ∃ c₁ c₂, RunWhere exec ok [] c₀ tr₁ c₁ ∧
      Step exec c₁ l c₂ ∧ ok tr₁ c₁ l c₂ ∧ Run exec c₂ tr₂ c := by
  generalize htr : tr₁ ++ l :: tr₂ = tr at h
  induction h generalizing tr₂ with
  | nil => simp at htr
  | @snoc tr c l' c' hinit hs hok ih =>
    rcases List.eq_nil_or_concat tr₂ with rfl | ⟨tr₂, l'', rfl⟩
    · obtain ⟨rfl, hl⟩ := List.append_inj' htr rfl
      obtain rfl := List.singleton_inj.mp hl
      exact ⟨c, c', hinit, hs, hok, .nil _⟩
    · rw [List.concat_eq_append, ← List.cons_append, ← List.append_assoc] at htr
      obtain ⟨hinit, hl⟩ := List.append_inj' htr rfl
      obtain rfl := List.singleton_inj.mp hl
      obtain ⟨c₁, c₂, hfirst, hstep, hok₁, hrest⟩ := ih hinit
      rw [List.concat_eq_append]
      exact ⟨c₁, c₂, hfirst, hstep, hok₁, hrest.snoc hs⟩

/-- A run computed by `schedule` in which nothing has to be met. -/
theorem Run.runWhere (hok : ∀ tr c l c', ok tr c l c') (h : Run exec c tr c') :
    RunWhere exec ok [] c tr c' := by
  induction h with
  | nil => exact .nil
  | snoc _ hs ih => exact ih.snoc hs (hok _ _ _ _)

/-- `schedule`, with a test of every step. -/
def scheduleWhere (exec : Exec W Op Res Err Ch)
    (test : List (Label Op Res Err) → Config W Op Res Err α → Label Op Res Err → Bool)
    (tr : List (Label Op Res Err)) (c : Config W Op Res Err α) :
    List (Tid × Ch) → Option (List (Label Op Res Err) × Config W Op Res Err α)
  | [] => some (tr, c)
  | (i, ch) :: rest =>
      match c.prog i with
      | .call op k =>
          match exec ch i op c.world with
          | some (r, w') =>
              if test tr c ⟨i, ⟨op, r⟩⟩ then
                scheduleWhere exec test (tr ++ [⟨i, ⟨op, r⟩⟩]) ⟨w', Function.update c.prog i (k r)⟩ rest
              else none
          | none => none
      | _ => none

theorem scheduleWhere_run
    {test : List (Label Op Res Err) → Config W Op Res Err α → Label Op Res Err → Bool}
    (htest : ∀ tr c l c', test tr c l = true → ok tr c l c') {s : List (Tid × Ch)}
    (h : scheduleWhere exec test tr c s = some (tr', c')) : RunWhere exec ok tr c tr' c' := by
  induction s generalizing tr c with
  | nil =>
    cases h
    exact .nil
  | cons choice rest ih =>
    obtain ⟨i, ch⟩ := choice
    unfold scheduleWhere at h
    split at h
    · next op k hprog =>
      split at h
      · next r w' hexec =>
        split at h
        · next ht =>
          have hstep : RunWhere exec ok tr c (tr ++ [⟨i, ⟨op, r⟩⟩])
              ⟨w', Function.update c.prog i (k r)⟩ :=
            .snoc .nil (.mk hprog hexec) (htest _ _ _ _ ht)
          exact hstep.trans (ih h)
        · cases h
      · cases h
    · cases h

/-- A run computed by `scheduleWhere` that passes a test at its end. -/
theorem scheduleWhere_any
    {test : List (Label Op Res Err) → Config W Op Res Err α → Label Op Res Err → Bool}
    (htest : ∀ tr c l c', test tr c l = true → ok tr c l c') (tr : List (Label Op Res Err))
    (c : Config W Op Res Err α) (s : List (Tid × Ch))
    (final : List (Label Op Res Err) × Config W Op Res Err α → Bool)
    (h : (scheduleWhere exec test tr c s).any final = true) :
    ∃ tr' c', RunWhere exec ok tr c tr' c' ∧ final (tr', c') = true := by
  obtain ⟨⟨tr', c'⟩, hc', hf⟩ := (Option.any_eq_true ..).mp h
  exact ⟨tr', c', scheduleWhere_run htest hc', hf⟩

end RunWhere

end Interleave
