/-
  Transactions that do not notice the others.

  An observer makes something of a database (`Sight`): what it sees, and how that can grow.
  `Blind` says of a program that it goes on in the same way, takes the same locks and writes
  the same changes on any two databases that look the same to the observer. The exact answer
  of a query does not matter, only what the program makes of it. On the way a program may
  learn facts about what is seen, if these last; it learns them with nothing of its own
  uncommitted, since a rollback would take the rest away.

  If the threads inside are blind and the steps of all others leave what is seen, then a run
  without the others' steps is a run too (`Shadow.run`): the same operations of the threads
  inside in the same order, from any database that looks the same, and with the same outcomes.
-/
import Valor.Lib.Embedding

namespace ReadCommitted

open Interleave Prog

/-- What an observer makes of a database, and how it can grow. -/
structure Sight (Db V : Type) where
  sees : Db → V
  grows : V → V → Prop
  refl : ∀ v, grows v v
  trans : ∀ u v w, grows u v → grows v w → grows u w

variable {Db V Lock Err Q Ch α β : Type} {Res : Q → Type}

namespace Sight

variable (S : Sight Db V)

/-- A fact about what is seen that lasts. -/
def Lasts (K : V → Prop) : Prop := ∀ v v', K v → S.grows v v' → K v'

/-- A change that is the same to the observer wherever it is made. -/
structure Respects (g : Db → Db) : Prop where
  same : ∀ d d', S.sees d = S.sees d' → S.sees (g d) = S.sees (g d')
  grows : ∀ d, S.grows (S.sees d) (S.sees (g d))

variable {S} {K : V → Prop} {gs : List (Db → Db)} {d d' : Db}

theorem Lasts.and {K' : V → Prop} (h : S.Lasts K) (h' : S.Lasts K') : S.Lasts fun v => K v ∧ K' v :=
  fun v v' hk hg => ⟨h v v' hk.1 hg, h' v v' hk.2 hg⟩

theorem lasts_true : S.Lasts fun _ => True := fun _ _ _ _ => trivial

theorem sees_foldl (hgs : ∀ g ∈ gs, S.Respects g) (h : S.sees d = S.sees d') :
    S.sees (gs.foldl (fun d g => g d) d) = S.sees (gs.foldl (fun d g => g d) d') := by
  induction gs generalizing d d' with
  | nil => exact h
  | cons g gs ih =>
    have hg : S.sees (g d) = S.sees (g d') := (hgs g (List.mem_cons_self ..)).same d d' h
    exact ih (fun g' hg' => hgs g' (List.mem_cons_of_mem _ hg')) hg

theorem grows_foldl (hgs : ∀ g ∈ gs, S.Respects g) (d : Db) :
    S.grows (S.sees d) (S.sees (gs.foldl (fun d g => g d) d)) := by
  induction gs generalizing d with
  | nil => exact S.refl _
  | cons g gs ih =>
    have hg : S.grows (S.sees d) (S.sees (g d)) := (hgs g (List.mem_cons_self ..)).grows d
    exact S.trans _ _ _ hg (ih (fun g' hg' => hgs g' (List.mem_cons_of_mem _ hg')) (g d))

end Sight

/-! ## Blind programs -/

/-- A query on databases that look the same: the program goes on in the same way, and knows
    `K'` of what is seen. -/
structure Sight.Reads {γ : Type} (S : Sight Db V) (K : V → Prop) (K' : Except Err α → V → Prop)
    (k : Except Err α → γ) (f : Db → Except Err α) : Prop where
  same : ∀ d d', S.sees d = S.sees d' → K (S.sees d) → k (f d) = k (f d')
  learns : ∀ d, K (S.sees d) → K' (f d) (S.sees d)

/-- A change of databases that look the same: the same locks, answers and writes. -/
structure Sight.Changes (S : Sight Db V) (K : V → Prop) (locks : Db → Db → List Lock)
    (act : Db → Db → Except Err (α × (Db → Db))) : Prop where
  same : ∀ e e' d d', S.sees e = S.sees e' → S.sees d = S.sees d' → K (S.sees d) →
    locks e d = locks e' d' ∧ act e d = act e' d'
  respects : ∀ e d a g, act e d = .ok (a, g) → S.Respects g

/-- The program, with nothing of its own uncommitted (`clean`) and the fact `K` known, does not
    notice what is not seen; it ends in a state with the property `Post`. -/
inductive Blind (D : Database Db Lock Q Res Err Ch) (S : Sight Db V) (i : Tid)
    (Post : Bool → (V → Prop) → Except Err α → Prop) :
    Bool → (V → Prop) → Transaction Q Res Err α → Prop
  | ret {clean K a} (h : Post clean K (.ok a)) : Blind D S i Post clean K (.ret a)
  | raise {clean K e} (h : Post clean K (.error e)) : Blind D S i Post clean K (.raise e)
  | query {K q k} (K' : Except Err (Res q) → V → Prop)
      (hq : ∀ ch, ∃ f, D.stmt ch i q = .query f ∧ S.Reads K K' k f)
      (hfails : ∀ v, K v → K' (.error D.failure) v) (hlasts : ∀ r, S.Lasts (K' r))
      (next : ∀ r, Blind D S i Post true (K' r) (k r)) : Blind D S i Post true K (.call (.sql q) k)
  | change {clean K q k}
      (hq : ∀ ch, ∃ locks act, D.stmt ch i q = .change locks act ∧ S.Changes K locks act)
      (next : ∀ r, Blind D S i Post false K (k r)) : Blind D S i Post clean K (.call (.sql q) k)
  | begin {clean K k} (next : ∀ r, Blind D S i Post clean K (k r)) :
      Blind D S i Post clean K (.call .begin k)
  | commit {clean K k} (ok : Blind D S i Post true K (k (.ok ())))
      (error : ∀ e, Blind D S i Post clean K (k (.error e))) : Blind D S i Post clean K (.call .commit k)
  | rollback {clean K k} (ok : Blind D S i Post true K (k (.ok ()))) :
      Blind D S i Post clean K (.call .rollback k)

section Rules

variable {D : Database Db Lock Q Res Err Ch} {S : Sight Db V} {i : Tid}
  {Post : Bool → (V → Prop) → Except Err α → Prop} {M : Bool → (V → Prop) → Except Err β → Prop}
  {clean : Bool} {K : V → Prop}

/-- Who knows more is still blind. -/
theorem Blind.knowing {K' : V → Prop} {p : Transaction Q Res Err α} (h : Blind D S i Post clean K p)
    (hK : ∀ v, K' v → K v) (hpost : ∀ c K K' x, (∀ v, K' v → K v) → Post c K x → Post c K' x) :
    Blind D S i Post clean K' p := by
  induction h generalizing K' with
  | ret h => exact .ret (hpost _ _ _ _ hK h)
  | raise h => exact .raise (hpost _ _ _ _ hK h)
  | query K₁ hq hfails hlasts next _ =>
    refine .query K₁ (fun ch => ?_) (fun v hv => hfails v (hK v hv)) hlasts next
    obtain ⟨g, hg, hreads⟩ := hq ch
    exact ⟨g, hg, fun d d' hd hk => hreads.same d d' hd (hK _ hk), fun d hk => hreads.learns d (hK _ hk)⟩
  | change hq _ ih =>
    refine .change (fun ch => ?_) fun r => ih r hK
    obtain ⟨locks, act, hact, hchanges⟩ := hq ch
    exact ⟨locks, act, hact, fun e e' d d' he hd hk => hchanges.same e e' d d' he hd (hK _ hk),
      hchanges.respects⟩
  | begin _ ih => exact .begin fun r => ih r hK
  | commit _ _ ihok iherror => exact .commit (ihok hK) fun e => iherror e hK
  | rollback _ ih => exact .rollback (ih hK)

/-- A first part that is blind by itself. -/
theorem Blind.tryBind {p : Transaction Q Res Err β} {f : Except Err β → Transaction Q Res Err α}
    (hp : Blind D S i M clean K p) (hf : ∀ c K x, M c K x → Blind D S i Post c K (f x)) :
    Blind D S i Post clean K (p.tryBind f) := by
  induction hp with
  | ret h => exact hf _ _ _ h
  | raise h => exact hf _ _ _ h
  | query K' hq hfails hlasts _ ih =>
    refine .query K' (fun ch => ?_) hfails hlasts ih
    obtain ⟨g, hg, hreads⟩ := hq ch
    exact ⟨g, hg, fun d d' hd hk => congrArg (Prog.tryBind · f) (hreads.same d d' hd hk), hreads.learns⟩
  | change hq _ ih => exact .change hq ih
  | begin _ ih => exact .begin ih
  | commit _ _ ihok iherror => exact .commit ihok iherror
  | rollback _ ih => exact .rollback ih

theorem Blind.bind {p : Transaction Q Res Err β} {f : β → Transaction Q Res Err α}
    (hp : Blind D S i M clean K p) (hraise : ∀ c K e, M c K (.error e) → Post c K (.error e))
    (hf : ∀ c K b, M c K (.ok b) → Blind D S i Post c K (f b)) :
    Blind D S i Post clean K (p.bind f) := by
  rw [← tryBind_eq_bind]
  refine hp.tryBind fun c K x hx => ?_
  cases x with
  | ok b => exact hf c K b hx
  | error e => exact .raise (hraise c K e hx)

theorem blind_lift {ε : Type} {g : ε → Err} {x : Except ε β} {f : β → Transaction Q Res Err α}
    (hraise : ∀ e, Post clean K (.error e)) (hf : ∀ b, x = .ok b → Blind D S i Post clean K (f b)) :
    Blind D S i Post clean K ((lift g x).bind f) := by
  cases x with
  | ok b => exact hf b rfl
  | error e => exact .raise (hraise (g e))

theorem blind_raiseWhen {c : Prop} [Decidable c] {e : Err} {f : Unit → Transaction Q Res Err α}
    (hraise : Post clean K (.error e)) (hf : ¬c → Blind D S i Post clean K (f ())) :
    Blind D S i Post clean K ((raiseWhen c e).bind f) := by
  unfold raiseWhen
  split
  · exact .raise hraise
  · next h => exact hf h

/-- Whatever the way out, nothing is left uncommitted. -/
theorem Blind.unitOfWork {p : Transaction Q Res Err α} {N : Bool → (V → Prop) → Except Err α → Prop}
    (hp : Blind D S i N clean K p) (hpost : ∀ c K x, N c K x → Post true K x) :
    Blind D S i Post clean K (unitOfWork p) := by
  unfold ReadCommitted.unitOfWork
  induction hp with
  | ret h => exact .rollback (.ret (hpost _ _ _ h))
  | raise h => exact .rollback (.raise (hpost _ _ _ h))
  | query K' hq hfails hlasts _ ih =>
    refine .query K' (fun ch => ?_) hfails hlasts ih
    obtain ⟨g, hg, hreads⟩ := hq ch
    exact ⟨g, hg, fun d d' hd hk => congrArg (Prog.andFinally .rollback) (hreads.same d d' hd hk),
      hreads.learns⟩
  | change hq _ ih => exact .change hq ih
  | begin _ ih => exact .begin ih
  | commit _ _ ihok iherror => exact .commit ihok iherror
  | rollback _ ih => exact .rollback ih

/-- A query whose answer the program may use as it is. -/
theorem blind_query {q : Q} {L : Except Err (Res q) → V → Prop} {f : Res q → Transaction Q Res Err α}
    (hq : ∀ ch, ∃ g, D.stmt ch i q = .query g ∧ S.Reads K L id g)
    (hfails : ∀ v, K v → L (.error D.failure) v) (hlasts : ∀ r, S.Lasts (L r))
    (hraise : ∀ e, Post true (L (.error e)) (.error e))
    (hf : ∀ a, Blind D S i Post true (L (.ok a)) (f a)) : Blind D S i Post true K ((sql q).bind f) := by
  rw [sql, Prog.perform, call_bind]
  refine .query L (fun ch => ?_) hfails hlasts fun r => ?_
  · obtain ⟨g, hg, hreads⟩ := hq ch
    refine ⟨g, hg, fun d d' hd hk => ?_, hreads.learns⟩
    have hanswer : g d = g d' := hreads.same d d' hd hk
    rw [hanswer]
  · cases r with
    | ok a => exact hf a
    | error e => exact .raise (hraise e)

theorem blind_change {q : Q} {f : Res q → Transaction Q Res Err α}
    (hq : ∀ ch, ∃ locks act, D.stmt ch i q = .change locks act ∧ S.Changes K locks act)
    (hraise : ∀ e, Post false K (.error e)) (hf : ∀ a, Blind D S i Post false K (f a)) :
    Blind D S i Post clean K ((sql q).bind f) := by
  rw [sql, Prog.perform, call_bind]
  refine .change hq fun r => ?_
  cases r with
  | ok a => exact hf a
  | error e => exact .raise (hraise e)

theorem blind_commit {f : Unit → Transaction Q Res Err α} (hraise : ∀ c e, Post c K (.error e))
    (hf : Blind D S i Post true K (f ())) : Blind D S i Post clean K (commit.bind f) := by
  rw [commit, Prog.perform, call_bind]
  exact .commit hf fun e => .raise (hraise clean e)

/-- A session of one query, of whose answer only what `f` makes of it is used. -/
theorem blind_session {q : Q} {L : Res q → V → Prop} {f : Res q → Transaction Q Res Err α}
    (hq : ∀ ch, ∃ g, D.stmt ch i q = .query g ∧
      (∀ d d', S.sees d = S.sees d' → K (S.sees d) → (g d).map f = (g d').map f) ∧
      ∀ d a, K (S.sees d) → g d = .ok a → L a (S.sees d))
    (hK : S.Lasts K) (hlasts : ∀ a, S.Lasts (L a)) (hraise : ∀ e, Post true K (.error e))
    (hf : ∀ a, Blind D S i Post true (L a) (f a)) :
    Blind D S i Post true K ((ReadCommitted.unitOfWork (sql q)).bind f) := by
  let known : Except Err (Res q) → V → Prop := fun r =>
    match r with
    | .ok a => L a
    | .error _ => K
  refine .query known (fun ch => ?_) (fun _ hk => hk) (fun r => ?_) fun r => ?_
  · obtain ⟨g, hg, hsame, hlearns⟩ := hq ch
    refine ⟨g, hg, fun d d' hd hk => ?_, fun d hk => ?_⟩
    · have hmap := hsame d d' hd hk
      cases ha : g d with
      | ok a =>
        cases ha' : g d' with
        | ok a' =>
          rw [ha, ha'] at hmap
          have hfa : f a = f a' := Except.ok.inj hmap
          refine congrArg (Prog.call _) (funext fun r => ?_)
          cases r with
          | ok u => exact hfa
          | error e => rfl
        | error e =>
          rw [ha, ha'] at hmap
          cases hmap
      | error e =>
        cases ha' : g d' with
        | ok a' =>
          rw [ha, ha'] at hmap
          cases hmap
        | error e' =>
          rw [ha, ha'] at hmap
          cases hmap
          rfl
    · cases ha : g d with
      | ok a => exact hlearns d a hk ha
      | error e => exact hk
  · cases r with
    | ok a => exact hlasts a
    | error e => exact hK
  · cases r with
    | ok a => exact .rollback (hf a)
    | error e => exact .rollback (.raise (hraise e))

end Rules

/-! ## A run without the others -/

section Shadow

variable {D : Database Db Lock Q Res Err Ch} {S : Sight Db V} {inside : Tid → Bool}
  {w w' : World Db Lock} {i j : Tid}

/-- A world to which the transactions outside do not belong, and that looks the same. -/
structure Sight.Same (S : Sight Db V) (inside : Tid → Bool) (w w' : World Db Lock) : Prop where
  db : S.sees w.db = S.sees w'.db
  writes : ∀ i, inside i → (w'.txn i).writes = (w.txn i).writes
  snapshot : ∀ i, inside i → (w'.txn i).snapshot.map S.sees = (w.txn i).snapshot.map S.sees
  owner : ∀ l i, w'.owner l = some i ↔ inside i ∧ w.owner l = some i

/-- A thread inside is blind, and what it knows is so. -/
structure Sight.Unaware (S : Sight Db V) (D : Database Db Lock Q Res Err Ch) (i : Tid)
    (w : World Db Lock) (p : Transaction Q Res Err α) (clean : Bool) (K : V → Prop) : Prop where
  blind : Blind D S i (fun _ _ _ => True) clean K p
  lasts : S.Lasts K
  knows : K (S.sees w.db)
  clean : clean → (w.txn i).writes = []
  respects : ∀ g ∈ (w.txn i).writes, S.Respects g

/-- The two runs: the threads inside are the same in both. -/
structure Shadow (D : Database Db Lock Q Res Err Ch) (S : Sight Db V) (inside : Tid → Bool)
    (c c' : Config (World Db Lock) (Op Q) (Op.Res Res) Err α) : Prop where
  prog : ∀ i, inside i → c'.prog i = c.prog i
  world : S.Same inside c.world c'.world
  unaware : ∀ i, inside i → ∃ clean K, S.Unaware D i c.world (c.prog i) clean K

theorem Sight.Same.view (h : S.Same inside w w') (hi : inside i)
    (hrespects : ∀ g ∈ (w.txn i).writes, S.Respects g) : S.sees (w.view i) = S.sees (w'.view i) := by
  rw [World.view, World.view, h.writes i hi]
  exact Sight.sees_foldl hrespects h.db

theorem Sight.Same.seen (h : S.Same inside w w') (hi : inside i)
    (hrespects : ∀ g ∈ (w.txn i).writes, S.Respects g) : S.sees (w.seen i) = S.sees (w'.seen i) := by
  have hsnapshot := h.snapshot i hi
  have hview := h.view hi hrespects
  unfold World.seen
  cases hw : (w.txn i).snapshot with
  | none =>
    rw [hw, Option.map_none, Option.map_eq_none_iff] at hsnapshot
    rw [hsnapshot]
    exact hview
  | some d =>
    rw [hw, Option.map_some, Option.map_eq_some_iff] at hsnapshot
    obtain ⟨d', hd', hsees⟩ := hsnapshot
    rw [hd']
    exact hsees.symm

/-- What others do to a thread that is unaware of them. -/
theorem Sight.Unaware.apart {p : Transaction Q Res Err α} {clean : Bool} {K : V → Prop}
    (h : S.Unaware D i w p clean K) (hapart : Apart i w w') (hgrows : S.grows (S.sees w.db) (S.sees w'.db)) :
    S.Unaware D i w' p clean K := by
  refine ⟨h.blind, h.lasts, h.lasts _ _ h.knows hgrows, ?_, ?_⟩
  · rw [hapart.txn]
    exact h.clean
  · rw [hapart.txn]
    exact h.respects

/-- Steps of a thread outside. -/
theorem Sight.Same.outside {v : World Db Lock} (h : S.Same inside w w') (hdb : S.sees v.db = S.sees w.db)
    (hapart : ∀ i, inside i → Apart i w v) : S.Same inside v w' := by
  refine ⟨hdb.trans h.db, fun i hi => ?_, fun i hi => ?_, fun l i => ?_⟩
  · rw [(hapart i hi).txn]
    exact h.writes i hi
  · rw [(hapart i hi).txn]
    exact h.snapshot i hi
  · rw [h.owner]
    exact and_congr_right fun hi => ((hapart i hi).owner l).symm

/-- Both worlds change the transaction of one thread inside in the same way. -/
theorem Sight.Same.update {t u : Txn Db} (h : S.Same inside w w') (hwrites : u.writes = t.writes)
    (hsnapshot : u.snapshot.map S.sees = t.snapshot.map S.sees) :
    S.Same inside { w with txn := Function.update w.txn i t }
      { w' with txn := Function.update w'.txn i u } := by
  refine ⟨h.db, fun j hj => ?_, fun j hj => ?_, h.owner⟩
  · by_cases hij : j = i
    · subst hij
      simpa using hwrites
    · simpa [Function.update_of_ne hij] using h.writes j hj
  · by_cases hij : j = i
    · subst hij
      simpa using hsnapshot
    · simpa [Function.update_of_ne hij] using h.snapshot j hj

theorem Sight.Same.write (h : S.Same inside w w') (hi : inside i) (g : Db → Db) :
    S.Same inside (w.write i g) (w'.write i g) :=
  h.update (by rw [h.writes i hi]) (h.snapshot i hi)

/-- The end of a transaction: its locks are free again. -/
theorem Sight.Same.release (h : S.Same inside w w') {db db' : Db} (hdb : S.sees db = S.sees db') :
    S.Same inside
      ⟨db, Function.update w.txn i .idle, fun l => if w.owner l = some i then none else w.owner l⟩
      ⟨db', Function.update w'.txn i .idle, fun l => if w'.owner l = some i then none else w'.owner l⟩ := by
  have hsame := h.update (i := i) (t := .idle) (u := .idle) rfl rfl
  refine ⟨hdb, hsame.writes, hsame.snapshot, fun l j => ?_⟩
  by_cases hij : j = i
  · subst hij
    have hfree : ∀ o : Option Tid, (if o = some j then none else o) ≠ some j := by
      intro o
      split
      · nofun
      · next hne => exact hne
    exact iff_of_false (hfree _) fun hand => hfree _ hand.2
  · dsimp only
    rw [owner_release hij, owner_release hij]
    exact h.owner l j

theorem Sight.Same.commit (h : S.Same inside w w') (hview : S.sees (w.view i) = S.sees (w'.view i)) :
    S.Same inside (w.commit i) (w'.commit i) :=
  h.release hview

theorem Sight.Same.rollback (h : S.Same inside w w') : S.Same inside (w.rollback i) (w'.rollback i) :=
  h.release h.db

/-- What is free for a thread inside is free without the others. -/
theorem Sight.Same.acquire [DecidableEq Lock] {v : World Db Lock} {ls : List Lock}
    (h : S.Same inside w w') (hi : inside i) (hv : w.acquire i ls = some v) :
    ∃ v', w'.acquire i ls = some v' ∧ S.Same inside v v' := by
  obtain ⟨hfree, rfl⟩ := acquire_cases hv
  have hfree' : ∀ l ∈ ls, w'.owner l = none ∨ w'.owner l = some i := by
    intro l hl
    cases ho : w'.owner l with
    | none => exact .inl rfl
    | some j =>
      obtain ⟨_, howner⟩ := (h.owner l j).mp ho
      rcases hfree l hl with hnone | hown
      · rw [hnone] at howner
        cases howner
      · rw [hown] at howner
        exact .inr howner.symm
  refine ⟨_, if_pos hfree', h.db, h.writes, h.snapshot, fun l j => ?_⟩
  dsimp only
  split
  · constructor
    · intro hij
      cases hij
      exact ⟨hi, rfl⟩
    · exact fun hand => hand.2
  · exact h.owner l j

variable [DecidableEq Lock] {clean : Bool} {K : V → Prop}

/-- What a step of a thread inside comes to: the same step without the others. -/
def Sight.Echoes (S : Sight Db V) (D : Database Db Lock Q Res Err Ch) (inside : Tid → Bool) (i : Tid)
    (ch : Ch) (op : Op Q) (k : Except Err (op.Res Res) → Transaction Q Res Err α) (w' v : World Db Lock)
    (r : Except Err (op.Res Res)) : Prop :=
  ∃ r' v', D.exec ch i op w' = some (r', v') ∧ k r' = k r ∧ S.Same inside v v' ∧
    ∃ clean K, S.Unaware D i v (k r) clean K

/-- An operation that fails leaves everything as it is. -/
theorem Sight.Unaware.fails {op : Op Q} {k : Except Err (op.Res Res) → Transaction Q Res Err α}
    {ch : Ch} {p : Transaction Q Res Err α} {K' : V → Prop} (h : S.Same inside w w')
    (hu : S.Unaware D i w p clean K)
    (hx : D.exec ch i op w' = some (.error D.failure, w')) (hlasts : S.Lasts K')
    (hknows : K' (S.sees w.db)) (hblind : Blind D S i (fun _ _ _ => True) clean K' (k (.error D.failure))) :
    S.Echoes D inside i ch op k w' w (.error D.failure) :=
  ⟨_, _, hx, rfl, h, clean, K', hblind, hlasts, hknows, hu.clean, hu.respects⟩

theorem Sight.Unaware.query {q : Q} {k : Except Err (Res q) → Transaction Q Res Err α} {ch : Ch}
    {K' : Except Err (Res q) → V → Prop} {g : Db → Except Err (Res q)} (h : S.Same inside w w')
    (hi : inside i) (hu : S.Unaware D i w (.call (.sql q) k) true K) (hfails : D.fails ch = false)
    (hg : D.stmt ch i q = .query g) (hreads : S.Reads K K' k g) (hlasts : ∀ r, S.Lasts (K' r))
    (next : ∀ r, Blind D S i (fun _ _ _ => True) true (K' r) (k r)) :
    S.Echoes D inside i ch (.sql q) k w' w (g (w.view i)) := by
  have hview : w.view i = w.db := view_of_writes_nil (hu.clean rfl)
  have hview' : w'.view i = w'.db := view_of_writes_nil ((h.writes i hi).trans (hu.clean rfl))
  refine ⟨g (w'.view i), w', ?_, ?_, h, true, K' (g (w.view i)), next _, hlasts _, ?_, hu.clean, hu.respects⟩
  · simp [Database.exec, hfails, hg, World.perform]
  · rw [hview, hview']
    exact (hreads.same _ _ h.db hu.knows).symm
  · rw [hview]
    exact hreads.learns _ hu.knows

theorem Sight.Unaware.change {q : Q} {k : Except Err (Res q) → Transaction Q Res Err α} {ch : Ch}
    {locks : Db → Db → List Lock} {act : Db → Db → Except Err (Res q × (Db → Db))}
    {r : Except Err (Res q)} {v : World Db Lock} (h : S.Same inside w w') (hi : inside i)
    (hu : S.Unaware D i w (.call (.sql q) k) clean K) (hfails : D.fails ch = false)
    (hg : D.stmt ch i q = .change locks act) (hchanges : S.Changes K locks act)
    (next : ∀ r, Blind D S i (fun _ _ _ => True) false K (k r))
    (hx : w.statement i locks act = some (r, v)) : S.Echoes D inside i ch (.sql q) k w' v r := by
  have hseen := h.seen hi hu.respects
  have hview := h.view hi hu.respects
  have hknows : K (S.sees (w.view i)) :=
    hu.lasts _ _ hu.knows (Sight.grows_foldl hu.respects w.db)
  obtain ⟨hlocks, hact⟩ := hchanges.same _ _ _ _ hseen hview hknows
  obtain ⟨u, hacquire, hcases⟩ := statement_cases hx
  obtain ⟨u', hacquire', hsame⟩ := h.acquire hi hacquire
  obtain ⟨hdb, htxn⟩ := acquire_db hacquire
  rw [hlocks] at hacquire'
  have hexec : D.exec ch i (.sql q) w' = w'.statement i locks act := by
    simp [Database.exec, hfails, hg, World.perform]
  obtain ⟨a, g, ha, rfl, rfl⟩ | ⟨e, he, rfl, rfl⟩ := hcases
  · refine ⟨.ok a, u'.write i g, ?_, rfl, hsame.write hi g, false, K, next _, hu.lasts, ?_,
      fun h => absurd h Bool.false_ne_true, ?_⟩
    · rw [hexec, World.statement, hacquire', ← hact, ha]
    · rw [db_write, hdb]
      exact hu.knows
    · rw [writes_write, htxn]
      intro g' hg'
      rcases List.mem_append.mp hg' with hold | hnew
      · exact hu.respects g' hold
      · rw [List.mem_singleton.mp hnew]
        exact hchanges.respects _ _ _ _ ha
  · refine ⟨.error e, u', ?_, rfl, hsame, false, K, next _, hu.lasts, ?_,
      fun h => absurd h Bool.false_ne_true, ?_⟩
    · rw [hexec, World.statement, hacquire', ← hact, he]
    · rw [hdb]
      exact hu.knows
    · rw [htxn]
      exact hu.respects

/-- One operation of a thread inside. -/
theorem Sight.Unaware.exec {op : Op Q} {k : Except Err (op.Res Res) → Transaction Q Res Err α} {ch : Ch}
    {r : Except Err (op.Res Res)} {v : World Db Lock} (h : S.Same inside w w') (hi : inside i)
    (hu : S.Unaware D i w (.call op k) clean K) (hx : D.exec ch i op w = some (r, v)) :
    S.Echoes D inside i ch op k w' v r := by
  have hblind := hu.blind
  cases hblind with
  | @query _ q _ K' hq hfails hlasts next =>
    obtain ⟨g, hg, hreads⟩ := hq ch
    cases hch : D.fails ch with
    | true =>
      simp only [Database.exec, hch] at hx
      cases hx
      exact hu.fails h (by simp [Database.exec, hch]) (hlasts _) (hfails _ hu.knows) (next _)
    | false =>
      simp only [Database.exec, hch, hg, World.perform] at hx
      cases hx
      exact hu.query h hi hch hg hreads hlasts next
  | @change _ _ q _ hq next =>
    obtain ⟨locks, act, hg, hchanges⟩ := hq ch
    cases hch : D.fails ch with
    | true =>
      simp only [Database.exec, hch] at hx
      cases hx
      exact ⟨_, _, by simp [Database.exec, hch], rfl, h, false, K, next _, hu.lasts, hu.knows,
        fun h => absurd h Bool.false_ne_true, hu.respects⟩
    | false =>
      simp only [Database.exec, hch, hg, World.perform] at hx
      exact hu.change h hi hch hg hchanges next hx
  | begin next =>
    cases hch : D.fails ch with
    | true =>
      simp only [Database.exec, hch] at hx
      cases hx
      exact hu.fails h (by simp [Database.exec, hch]) hu.lasts hu.knows (next _)
    | false =>
      simp only [Database.exec, hch] at hx
      cases hx
      refine ⟨.ok (), w'.begin i, by simp [Database.exec, hch], rfl, h.update (h.writes i hi) ?_, clean, K,
        next _, hu.lasts, hu.knows, ?_, ?_⟩
      · simpa using (h.view hi hu.respects).symm
      · rw [writes_begin]
        exact hu.clean
      · rw [writes_begin]
        exact hu.respects
  | commit ok error =>
    cases hch : D.fails ch with
    | true =>
      simp only [Database.exec, hch] at hx
      cases hx
      exact hu.fails h (by simp [Database.exec, hch]) hu.lasts hu.knows (error _)
    | false =>
      simp only [Database.exec, hch] at hx
      cases hx
      have hgrows : S.grows (S.sees w.db) (S.sees (w.view i)) := Sight.grows_foldl hu.respects w.db
      refine ⟨.ok (), w'.commit i, by simp [Database.exec, hch], rfl, h.commit (h.view hi hu.respects), true,
        K, ok, hu.lasts, hu.lasts _ _ hu.knows hgrows, ?_, ?_⟩
      · rw [txn_commit]
        exact fun _ => rfl
      · rw [txn_commit]
        simp [Txn.idle]
  | rollback ok =>
    cases hx
    refine ⟨.ok (), w'.rollback i, rfl, rfl, h.rollback, true, K, ok, hu.lasts, hu.knows, ?_, ?_⟩
    · rw [txn_rollback]
      exact fun _ => rfl
    · rw [txn_rollback]
      simp [Txn.idle]

variable {c c' d : Config (World Db Lock) (Op Q) (Op.Res Res) Err α}
  {l : Label (Op Q) (Op.Res Res) Err} {tr : List (Label (Op Q) (Op.Res Res) Err)}

/-- Who performed what. -/
def performed (l : Label (Op Q) (Op.Res Res) Err) : Tid × Op Q := (l.tid, l.event.op)

omit [DecidableEq Lock] in
theorem shadow_start {db db' : Db} (inside : Tid → Bool) (progs : Tid → Transaction Q Res Err α)
    (hblind : ∀ i, inside i → Blind D S i (fun _ _ _ => True) true (fun _ => True) (progs i))
    (h : S.sees db = S.sees db') :
    Shadow D S inside ⟨World.ofDb db, progs⟩ ⟨World.ofDb db', progs⟩ := by
  refine ⟨fun _ _ => rfl, ⟨h, fun _ _ => rfl, fun _ _ => rfl, fun l i => ?_⟩, fun i hi => ?_⟩
  · exact iff_of_false nofun fun hand => nomatch hand.2
  · exact ⟨true, _, hblind i hi, Sight.lasts_true, trivial, fun _ => rfl, by simp [World.ofDb, Txn.idle]⟩

/-- A step of a thread inside is taken in the shadow as well. -/
theorem Shadow.step_inside (h : Shadow D S inside c c') (hs : Step D.exec c l d) (hi : inside l.tid) :
    ∃ l' d', Step D.exec c' l' d' ∧ performed l' = performed l ∧ Shadow D S inside d d' := by
  cases hs with
  | @mk i op k ch r v hprog hexec =>
    obtain ⟨clean, K, hunaware⟩ := h.unaware i hi
    have hgrows : S.grows (S.sees c.world.db) (S.sees v.db) :=
      (exec_db hexec).rel (R := fun d d' => S.grows (S.sees d) (S.sees d')) (fun d => S.refl _)
        fun _ => Sight.grows_foldl hunaware.respects _
    have hprog' : c'.prog i = .call op k := (h.prog i hi).trans hprog
    rw [hprog] at hunaware
    obtain ⟨r', v', hexec', hk, hsame, hafter⟩ := hunaware.exec h.world hi hexec
    refine ⟨⟨i, ⟨op, r'⟩⟩, _, .mk hprog' hexec', rfl, fun j hj => ?_, hsame, fun j hj => ?_⟩
    · by_cases hij : j = i
      · subst hij
        simpa using hk
      · simpa [Function.update_of_ne hij] using h.prog j hj
    · by_cases hij : j = i
      · subst hij
        simpa using hafter
      · obtain ⟨clean', K', hother⟩ := h.unaware j hj
        refine ⟨clean', K', ?_⟩
        simpa [Function.update_of_ne hij] using hother.apart (exec_apart hij hexec) hgrows

/-- A step of another thread is left out, if it leaves what is seen. -/
theorem Shadow.step_outside (h : Shadow D S inside c c') (hs : Step D.exec c l d) (hi : ¬inside l.tid)
    (hsees : S.sees d.world.db = S.sees c.world.db) : Shadow D S inside d c' := by
  cases hs with
  | @mk i op k ch r v hprog hexec =>
    have hne : ∀ j, inside j → j ≠ i := by
      rintro j hj rfl
      exact hi hj
    have hapart : ∀ j, inside j → Apart j c.world v := fun j hj => exec_apart (hne j hj) hexec
    refine ⟨fun j hj => ?_, h.world.outside hsees hapart, fun j hj => ?_⟩
    · simpa [Function.update_of_ne (hne j hj)] using h.prog j hj
    · obtain ⟨clean, K, hunaware⟩ := h.unaware j hj
      refine ⟨clean, K, ?_⟩
      have hgrows : S.grows (S.sees c.world.db) (S.sees v.db) := by
        have hsame : S.sees v.db = S.sees c.world.db := hsees
        rw [hsame]
        exact S.refl _
      simpa [Function.update_of_ne (hne j hj)] using hunaware.apart (hapart j hj) hgrows

/-- The steps of the threads inside are a run by themselves. -/
theorem Shadow.run (h : Shadow D S inside c c') (hr : Run D.exec c tr d)
    (hquiet : ∀ tr d, Run D.exec c tr d → ∀ l d', Step D.exec d l d' → ¬inside l.tid →
      S.sees d'.world.db = S.sees d.world.db) :
    ∃ tr' d', Run D.exec c' tr' d' ∧ tr'.map performed = (tr.filter (inside ·.tid)).map performed ∧
      Shadow D S inside d d' := by
  induction hr with
  | nil => exact ⟨[], c', .nil c', rfl, h⟩
  | @snoc _ _ tr l hinit hs ih =>
    obtain ⟨tr', d', hrun, hperformed, hshadow⟩ := ih
    by_cases hi : inside l.tid = true
    · obtain ⟨l', e', hstep, hl, hafter⟩ := hshadow.step_inside hs hi
      refine ⟨tr' ++ [l'], e', .snoc hrun hstep, ?_, hafter⟩
      simp [hperformed, hl, hi]
    · refine ⟨tr', d', hrun, ?_, hshadow.step_outside hs hi (hquiet _ _ hinit _ _ hs hi)⟩
      simp [hperformed, hi]

end Shadow

end ReadCommitted
