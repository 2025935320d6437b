/-
  Serial execution.

  A `History` is a list of atomic steps, each enabled in the state in which it is taken.
  A step that later ones do not notice can be put in before them (`History.after`): it
  leaves them enabled and commutes with them. Ordered by rank, a history has one place
  for a new step (`exists_split`).

  `Database.alone` runs a transaction while no other one is open. `Ends` says with which
  outcome it ends and what it leaves, and its rules run a program whose statements all
  succeed; `Yields` is the case that it returns.
-/
import Mathlib.Data.List.Pairwise
import Valor.Lib.ReadCommitted

namespace Serial

/-! ## Histories -/

section Histories

variable {S E : Type} {does : E → S → Prop} {apply : E → S → S} {s t u : S} {e : E}
  {es fs : List E}

inductive History (d : E → S → Prop) (f : E → S → S) : List E → S → S → Prop
  | nil (s : S) : History d f [] s s
  | cons {e : E} {es : List E} {s t : S} (step : d e s) (rest : History d f es (f e s) t) :
      History d f (e :: es) s t

theorem history_append :
    History does apply (es ++ fs) s u ↔ ∃ t, History does apply es s t ∧ History does apply fs t u := by
  constructor
  · intro h
    induction es generalizing s with
    | nil => exact ⟨s, .nil s, h⟩
    | cons e es ih =>
      obtain _ | ⟨hs, hr⟩ := h
      obtain ⟨t, ht, hu⟩ := ih hr
      exact ⟨t, .cons hs ht, hu⟩
  · rintro ⟨t, ht, hu⟩
    induction ht with
    | nil => exact hu
    | cons hs _ ih => exact .cons hs (ih hu)

/-- What every step of a history keeps. -/
theorem History.rel {R : S → S → Prop} (refl : ∀ s, R s s) (trans : ∀ a b c, R a b → R b c → R a c)
    (h : History does apply es s t) (hstep : ∀ e ∈ es, ∀ s, does e s → R s (apply e s)) : R s t := by
  induction h with
  | nil => exact refl _
  | cons hs _ ih =>
    exact trans _ _ _ (hstep _ (List.mem_cons_self ..) _ hs)
      (ih fun e he => hstep e (List.mem_cons_of_mem _ he))

/-- Every step is taken between the two ends. -/
theorem History.within {R : S → S → Prop} (refl : ∀ s, R s s)
    (trans : ∀ a b c, R a b → R b c → R a c) (hR : ∀ e s, does e s → R s (apply e s))
    (h : History does apply es s t) :
    History (fun e v => does e v ∧ R s v ∧ R (apply e v) t) apply es s t := by
  suffices key : ∀ s₀, R s₀ s → History (fun e v => does e v ∧ R s₀ v ∧ R (apply e v) t) apply es s t
    from key s (refl s)
  induction h with
  | nil => exact fun _ _ => .nil _
  | cons hs hrest ih =>
    intro s₀ h₀
    exact .cons ⟨hs, h₀, hrest.rel refl trans fun e _ => hR e⟩ (ih s₀ (trans _ _ _ h₀ (hR _ _ hs)))

/-- A step in front of a history whose steps do not notice it. -/
theorem History.after {does' : E → S → Prop} {g : S → S} (h : History does apply es s t)
    (hg : ∀ e ∈ es, ∀ v, does e v → does' e (g v) ∧ apply e (g v) = g (apply e v)) :
    History does' apply es (g s) (g t) := by
  induction h with
  | nil => exact .nil _
  | cons hs _ ih =>
    obtain ⟨hd, hc⟩ := hg _ (List.mem_cons_self ..) _ hs
    refine .cons hd ?_
    rw [hc]
    exact ih fun e he => hg e (List.mem_cons_of_mem _ he)

end Histories

/-! ## Order by rank -/

section Rank

variable {E : Type} {rank : E → Nat} {e : E} {es ys zs : List E}

/-- The place after the steps of the same rank. -/
theorem exists_split (h : es.Pairwise fun a b => rank a ≤ rank b) (n : Nat) :
    ∃ ys zs, es = ys ++ zs ∧ (∀ y ∈ ys, rank y ≤ n) ∧ ∀ z ∈ zs, n < rank z := by
  induction es with
  | nil => exact ⟨[], [], rfl, by simp, by simp⟩
  | cons x xs ih =>
    obtain ⟨hx, hxs⟩ := List.pairwise_cons.mp h
    by_cases hn : rank x ≤ n
    · obtain ⟨ys, zs, rfl, hys, hzs⟩ := ih hxs
      refine ⟨x :: ys, zs, rfl, ?_, hzs⟩
      intro y hy
      rcases List.mem_cons.mp hy with rfl | hy
      · exact hn
      · exact hys y hy
    · refine ⟨[], x :: xs, rfl, by simp, ?_⟩
      intro z hz
      rcases List.mem_cons.mp hz with rfl | hz
      · omega
      · have := hx z hz
        omega

theorem pairwise_insert (h : (ys ++ zs).Pairwise fun a b => rank a ≤ rank b)
    (hys : ∀ y ∈ ys, rank y ≤ rank e) (hzs : ∀ z ∈ zs, rank e < rank z) :
    (ys ++ e :: zs).Pairwise fun a b => rank a ≤ rank b := by
  obtain ⟨hy, hz, hyz⟩ := List.pairwise_append.mp h
  refine List.pairwise_append.mpr ⟨hy, List.pairwise_cons.mpr ⟨fun z h => Nat.le_of_lt (hzs z h), hz⟩, ?_⟩
  intro y hmy z hmz
  rcases List.mem_cons.mp hmz with rfl | hmz
  · exact hys y hmy
  · exact hyz y hmy z hmz

end Rank

end Serial

/-! ## Transactions alone -/

namespace ReadCommitted

open Interleave Prog

variable {Db Lock Err Q Ch : Type} {Res : Q → Type}

/-- One operation of the only open transaction. -/
def Database.alone [DecidableEq Lock] (D : Database Db Lock Q Res Err Ch) (ch : Ch) (i : Tid) (op : Op Q)
    (w : World Db Lock) : Except Err (op.Res Res) × World Db Lock :=
  (D.exec ch i op w).getD (.error D.failure, w)

/-- The database that a statement leaves when no other transaction is open. -/
def Stmt.leaves {α : Type} (db : Db) : Stmt Db Lock Err α → Except Err Db
  | .query f => (f db).map fun _ => db
  | .change _ act => (act db db).map fun r => r.2 db

/-- What the transactions return, one after another, and the database they leave. -/
def Database.serially [DecidableEq Lock] {α : Type} (D : Database Db Lock Q Res Err Ch) (ch : Ch) :
    List (Transaction Q Res Err α) → Db → List (Except Err α) × Db
  | [], db => ([], db)
  | p :: ps, db =>
      let o := p.runState (D.alone ch 0) (World.ofDb db)
      let rest := D.serially ch ps o.state.db
      (o.result :: rest.1, rest.2)

/-- The world of thread `i` when no other transaction is open. -/
structure Sole (i : Tid) (db : Db) (ws : List (Db → Db)) (w : World Db Lock) : Prop where
  db : w.db = db
  writes : (w.txn i).writes = ws
  owner : ∀ l, w.owner l = none ∨ w.owner l = some i

section Yields

variable {D : Database Db Lock Q Res Err Ch} {ch : Ch} {i : Tid} {db : Db} {ws : List (Db → Db)}
  {w : World Db Lock} {α β : Type}

theorem sole_ofDb (db : Db) : Sole i db [] (World.ofDb db : World Db Lock) :=
  ⟨rfl, rfl, fun _ => .inl rfl⟩

theorem Sole.view (h : Sole i db ws w) : w.view i = ws.foldl (fun d f => f d) db := by
  rw [view_eq h.writes, h.db]

variable [DecidableEq Lock]

/-- Run alone, the program ends with the outcome `o` and leaves the database `db'`. -/
def Ends (D : Database Db Lock Q Res Err Ch) (ch : Ch) (i : Tid) (p : Transaction Q Res Err α)
    (w : World Db Lock) (o : Except Err α) (db' : Db) : Prop :=
  (p.runState (D.alone ch i) w).result = o ∧ (p.runState (D.alone ch i) w).state.db = db'

/-- Run alone, the program returns `a` and leaves the database `db'`. -/
abbrev Yields (D : Database Db Lock Q Res Err Ch) (ch : Ch) (i : Tid) (p : Transaction Q Res Err α)
    (w : World Db Lock) (a : α) (db' : Db) : Prop :=
  Ends D ch i p w (.ok a) db'

variable {a : α} {b : β} {o : Except Err α} {db' : Db}

theorem yields_ret (h : Sole i db ws w) : Yields D ch i (.ret a) w a db := ⟨rfl, h.db⟩

theorem ends_raise {e : Err} (h : Sole i db ws w) :
    Ends D ch i (.raise e : Transaction Q Res Err α) w (.error e) db := ⟨rfl, h.db⟩

theorem ends_perform {op : Op Q} {r : op.Res Res} {w' : World Db Lock}
    {k : op.Res Res → Transaction Q Res Err α} (hx : D.exec ch i op w = some (.ok r, w'))
    (hk : Ends D ch i (k r) w' o db') : Ends D ch i ((perform op).bind k) w o db' := by
  have halone : D.alone ch i op w = (.ok r, w') := by
    rw [Database.alone, hx]
    rfl
  rw [Ends, perform, call_bind, runState_call, halone]
  exact hk

theorem ends_raiseWhen {c : Prop} [Decidable c] {e : Err} {k : Unit → Transaction Q Res Err α}
    (hc : ¬c) (hk : Ends D ch i (k ()) w o db') :
    Ends D ch i ((raiseWhen c e).bind k) w o db' := by
  rwa [raiseWhen, if_neg hc]

theorem ends_lift {ε : Type} {g : ε → Err} {x : Except ε β} {k : β → Transaction Q Res Err α}
    (hx : x = .ok b) (hk : Ends D ch i (k b) w o db') :
    Ends D ch i ((lift g x).bind k) w o db' := by
  rwa [hx]

theorem ends_query {q : Q} {f : Db → Except Err (Res q)} {r : Res q}
    {k : Res q → Transaction Q Res Err α} (hch : D.fails ch = false) (hq : D.stmt ch i q = .query f)
    (h : Sole i db ws w) (hr : f (ws.foldl (fun d f => f d) db) = .ok r)
    (hk : Ends D ch i (k r) w o db') : Ends D ch i ((sql q).bind k) w o db' := by
  refine ends_perform ?_ hk
  simp [Database.exec, hch, hq, World.perform, h.view, hr]

theorem ends_change {q : Q} {locks : Db → Db → List Lock}
    {act : Db → Db → Except Err (Res q × (Db → Db))} {r : Res q} {g : Db → Db}
    {k : Res q → Transaction Q Res Err α} (hch : D.fails ch = false)
    (hq : D.stmt ch i q = .change locks act) (h : Sole i db ws w)
    (hr : ∀ seen, act seen (ws.foldl (fun d f => f d) db) = .ok (r, g))
    (hk : ∀ w, Sole i db (ws ++ [g]) w → Ends D ch i (k r) w o db') :
    Ends D ch i ((sql q).bind k) w o db' := by
  have hview := h.view
  obtain ⟨w', hw'⟩ : ∃ w', w.acquire i (locks (w.seen i) (w.view i)) = some w' := by
    rw [World.acquire, if_pos fun l _ => h.owner l]
    exact ⟨_, rfl⟩
  obtain ⟨hdb, htxn⟩ := acquire_db hw'
  obtain ⟨_, howner⟩ := acquire_cases hw'
  have hx : D.exec ch i (.sql q) w = some (.ok r, w'.write i g) := by
    rw [hview] at hw'
    simp [Database.exec, hch, hq, World.perform, World.statement, hview, hw', hr]
  refine ends_perform hx (hk _ ⟨?_, ?_, fun l => ?_⟩)
  · rw [db_write, hdb, h.db]
  · rw [writes_write, htxn, h.writes]
  · rw [owner_write, howner]
    show (if _ then some i else w.owner l) = none ∨ (if _ then some i else w.owner l) = some i
    split
    · exact .inr rfl
    · exact h.owner l

theorem ends_commit {k : Unit → Transaction Q Res Err α} (hch : D.fails ch = false)
    (h : Sole i db ws w)
    (hk : ∀ w, Sole i (ws.foldl (fun d f => f d) db) [] w → Ends D ch i (k ()) w o db') :
    Ends D ch i (commit.bind k) w o db' := by
  have hx : D.exec ch i .commit w = some (.ok (), w.commit i) := by simp [Database.exec, hch]
  refine ends_perform hx (hk _ ⟨?_, ?_, fun l => ?_⟩)
  · rw [db_commit, h.view]
  · rw [txn_commit]
    rfl
  · show (if _ then none else w.owner l) = none ∨ (if _ then none else w.owner l) = some i
    split
    · exact .inl rfl
    · exact h.owner l

theorem ends_lift_error {ε : Type} {g : ε → Err} {x : Except ε β} {k : β → Transaction Q Res Err α}
    {e : ε} (hx : x = .error e) (h : Sole i db ws w) :
    Ends D ch i ((lift g x).bind k) w (.error (g e)) db := by
  rw [hx]
  exact ends_raise h

theorem ends_perform_error {op : Op Q} {e : Err} {w' : World Db Lock}
    {k : op.Res Res → Transaction Q Res Err α} (hx : D.exec ch i op w = some (.error e, w'))
    (hdb : w'.db = db) : Ends D ch i ((perform op).bind k) w (.error e) db := by
  have halone : D.alone ch i op w = (.error e, w') := by
    rw [Database.alone, hx]
    rfl
  rw [Ends, perform, call_bind, runState_call, halone]
  exact ⟨rfl, hdb⟩

/-- A query that fails. -/
theorem ends_query_error {q : Q} {f : Db → Except Err (Res q)} {e : Err}
    {k : Res q → Transaction Q Res Err α} (hch : D.fails ch = false) (hq : D.stmt ch i q = .query f)
    (h : Sole i db ws w) (hr : f (ws.foldl (fun d f => f d) db) = .error e) :
    Ends D ch i ((sql q).bind k) w (.error e) db := by
  refine ends_perform_error ?_ h.db
  simp [Database.exec, hch, hq, World.perform, h.view, hr]

/-- A change that fails: it may have got its locks. -/
theorem ends_change_error {q : Q} {locks : Db → Db → List Lock}
    {act : Db → Db → Except Err (Res q × (Db → Db))} {e : Err}
    {k : Res q → Transaction Q Res Err α} (hch : D.fails ch = false)
    (hq : D.stmt ch i q = .change locks act) (h : Sole i db ws w)
    (hr : ∀ seen, act seen (ws.foldl (fun d f => f d) db) = .error e) :
    Ends D ch i ((sql q).bind k) w (.error e) db := by
  have hview := h.view
  obtain ⟨w', hw'⟩ : ∃ w', w.acquire i (locks (w.seen i) (w.view i)) = some w' := by
    rw [World.acquire, if_pos fun l _ => h.owner l]
    exact ⟨_, rfl⟩
  obtain ⟨hdb, _⟩ := acquire_db hw'
  have hx : D.exec ch i (.sql q) w = some (.error e, w') := by
    rw [hview] at hw'
    simp [Database.exec, hch, hq, World.perform, World.statement, hview, hw', hr]
  exact ends_perform_error hx (hdb.trans h.db)

theorem ends_raiseWhen_raised {c : Prop} [Decidable c] {e : Err}
    {k : Unit → Transaction Q Res Err α} (hc : c) (h : Sole i db ws w) :
    Ends D ch i ((raiseWhen c e).bind k) w (.error e) db := by
  rw [raiseWhen, if_pos hc]
  exact ends_raise h

/-- A program that returns, and then another. -/
theorem ends_bind {p : Transaction Q Res Err β} {k : β → Transaction Q Res Err α} {db'' : Db}
    (h : Yields D ch i p w b db') (hk : ∀ w', w'.db = db' → Ends D ch i (k b) w' o db'') :
    Ends D ch i (p.bind k) w o db'' := by
  obtain ⟨hr, hs⟩ := h
  rw [Ends, runState_bind, hr]
  exact hk _ hs

theorem ends_bind_error {p : Transaction Q Res Err β} {k : β → Transaction Q Res Err α} {e : Err}
    (h : Ends D ch i p w (.error e) db') : Ends D ch i (p.bind k) w (.error e) db' := by
  obtain ⟨hr, hs⟩ := h
  rw [Ends, runState_bind, hr]
  exact ⟨rfl, hs⟩

/-- A program whose value is only wrapped. -/
theorem yields_map {p : Transaction Q Res Err β} {f : β → α} (h : Yields D ch i p w b db') :
    Yields D ch i (p.bind fun b => .ret (f b)) w (f b) db' := by
  obtain ⟨hr, hs⟩ := h
  rw [Yields, Ends, runState_bind, hr]
  exact ⟨rfl, hs⟩

theorem ends_unitOfWork {body : Transaction Q Res Err α} (h : Ends D ch i body w o db') :
    Ends D ch i (unitOfWork body) w o db' := by
  unfold unitOfWork
  induction body generalizing w with
  | ret b => exact h
  | raise e => exact h
  | call op k ih => exact ih _ h

/-- Transactions that succeed one after another. -/
theorem serially_cons {p : Transaction Q Res Err α} {ps : List (Transaction Q Res Err α)}
    (h : Yields D ch 0 p (World.ofDb db) a db') :
    D.serially ch (p :: ps) db = (.ok a :: (D.serially ch ps db').1, (D.serially ch ps db').2) := by
  simp only [Database.serially, h.1, h.2]

end Yields

end ReadCommitted
