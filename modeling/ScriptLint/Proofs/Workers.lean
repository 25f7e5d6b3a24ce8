import Mathlib.Data.List.Forall2
import ScriptLint.Progress
import ScriptLint.Proofs.Course
import ScriptLint.Workers

/-!
What holds of workers in whatever order they take their turns. Steps are reasoned about with
conditions before and after them, and all that is asked of such a `Logic` is that it knows steps
that do nothing and steps one after the other. Main statements: `Logic.Keeps.work`, what every step
of a job keeps is kept by all workers together, and `Logic.work_passes`, which takes the jobs one by
one.
-/

namespace ScriptLint

variable {W α β ρ ρ' κ : Type}

/-! ## Conditions before and after a step -/

/-- A way to reason about steps: from what holds of a world before a step follows what holds of what
the step gives and of the world after it. -/
structure Logic (W : Type) where
  triple : {α : Type} → (W → Prop) → Traced α → (α → W → Prop) → Prop
  pure : ∀ {α : Type} {Q : α → W → Prop} (a : α), triple (Q a) (Pure.pure a) Q
  /-- The second step has to follow on what the first one can give only. -/
  bind : ∀ {α β : Type} {P : W → Prop} {Q : α → W → Prop} {Q' : β → W → Prop} {x : Traced α}
    {next : α → Traced β}, triple P x Q →
    (∀ t, triple (Q (x.runOn t).1) (next (x.runOn t).1) Q') → triple P (x >>= next) Q'
  /-- For each world before the step there may be another reason. -/
  conseq : ∀ {α : Type} {P : W → Prop} {Q : α → W → Prop} {x : Traced α},
    (∀ w, P w → ∃ P' Q', P' w ∧ triple P' x Q' ∧ ∀ a w, Q' a w → Q a w) → triple P x Q

namespace Logic

variable (L : Logic W)

theorem imp {P : W → Prop} {Q Q' : α → W → Prop} {x : Traced α} (h : L.triple P x Q)
    (hQ : ∀ a w, Q a w → Q' a w) :
    L.triple P x Q' :=
  L.conseq fun _ hw => ⟨P, Q, hw, h, hQ⟩

theorem bind' {P : W → Prop} {Q : α → W → Prop} {Q' : β → W → Prop} {x : Traced α}
    {next : α → Traced β}
    (hx : L.triple P x Q) (hn : ∀ a, L.triple (Q a) (next a) Q') : L.triple P (x >>= next) Q' :=
  L.bind hx fun _ => hn _

theorem map {P : W → Prop} {Q : β → W → Prop} {x : Traced α} {g : α → β}
    (hx : L.triple P x fun a => Q (g a)) : L.triple P (g <$> x) Q := by
  rw [map_eq_pure_bind]
  exact L.bind' hx fun a => L.pure (g a)

/-- The elements that have been taken, and those that have not. -/
theorem mapM {f : α → Traced β} {I : List β → List α → W → Prop} (done : List β) (l : List α)
    (h : ∀ done, ∀ a ∈ l, ∀ rest, L.triple (I done (a :: rest)) (f a) fun b =>
      I (done ++ [b]) rest) :
    L.triple (I done l) (l.mapM f) fun bs => I (done ++ bs) [] := by
  induction l generalizing done with
  | nil =>
    have hnil := L.pure (Q := fun bs => I (done ++ bs) []) []
    rwa [List.append_nil] at hnil
  | cons a l ih =>
    rw [List.mapM_cons]
    refine L.bind' (h done a List.mem_cons_self l) fun b => ?_
    refine L.bind' (ih (done ++ [b]) fun done a' hm => h done a' (List.mem_cons_of_mem a hm))
      fun bs => ?_
    have hcons := L.pure (Q := fun bs => I (done ++ bs) []) (b :: bs)
    rwa [List.append_cons] at hcons

theorem foldlM {f : β → α → Traced β} {I : β → W → Prop} (h : ∀ b a, L.triple (I b) (f b a) I)
    (b : β) (l : List α) :
    L.triple (I b) (l.foldlM f b) I := by
  induction l generalizing b with
  | nil => exact L.pure b
  | cons a l ih =>
    rw [List.foldlM_cons]
    exact L.bind' (h b a) ih

end Logic

/-! ## Jobs -/

namespace Job

theorem advance_once (x : Traced ρ) : (once x).advance = done <$> x := by
  funext t
  show ((done (x t).1.1, (x t).1.2), (x t).2) = ((done (x t).1.1, (x t).1.2 ++ []), (x t).2)
  rw [List.append_nil]

theorem runOn_advance_once_bind (x : Traced ρ) (next : ρ → Job ρ') (t : FileTree) :
    (once x >>= next).advance.runOn t = (next (x.runOn t).1, (x.runOn t).2) := rfl

theorem advance_bind_step (change : FileTree → FileTree) (events : FileTree → List Event)
    (rest : FileTree → Job ρ) (next : ρ → Job ρ') :
    (step change events rest >>= next).advance =
      (· >>= next) <$> (step change events rest).advance := by
  funext t
  show ((rest t >>= next, events t), change t) = ((rest t >>= next, events t ++ []), change t)
  rw [List.append_nil]

theorem finish_step (change : FileTree → FileTree) (events : FileTree → List Event)
    (rest : FileTree → Job ρ) :
    (step change events rest).finish = (step change events rest).advance >>= finish := rfl

theorem finish_once (x : Traced ρ) : (once x).finish = x := by
  rw [once, finish_step]
  show (once x).advance >>= finish = x
  rw [advance_once, map_eq_pure_bind, bind_assoc]
  simp only [pure_bind]
  exact bind_pure x

theorem finish_bind (job : Job ρ) (next : ρ → Job ρ') :
    (job >>= next).finish = job.finish >>= fun result => (next result).finish := by
  induction job with
  | done result => exact (pure_bind result fun result => (next result).finish).symm
  | step change events rest ih =>
    funext t
    have hstep : (step change events rest >>= next).finish t =
        ((((rest t >>= next).finish (change t)).1.1,
          events t ++ ((rest t >>= next).finish (change t)).1.2),
          ((rest t >>= next).finish (change t)).2) := rfl
    rw [hstep, ih]
    exact Prod.ext (Prod.ext rfl (List.append_assoc _ _ _).symm) rfl

end Job

/-- A single worker does job after job. -/
theorem work_of_single {workers : Nat} (h : workers ≤ 1) (turns : List Nat) (jobs : List (Job ρ)) :
    work workers turns jobs = jobs.mapM Job.finish := by
  have hsettled : (jobs.map fun job => ({ job } : Piece ρ)).mapM Piece.settle =
      pure (jobs.map fun job => { job }) := by
    induction jobs with
    | nil => rfl
    | cons job jobs ih =>
      rw [List.map_cons, List.mapM_cons, ih]
      rfl
  unfold work
  simp only [h, if_true, List.foldlM_nil, pure_bind, hsettled, List.mapM_map]
  rfl

namespace Logic

variable (L : Logic W)

/-- What each of its steps keeps, a job keeps. -/
theorem finish {I : Job ρ → W → Prop} (job : Job ρ) (h : ∀ job, L.triple (I job) job.advance I) :
    L.triple (I job) job.finish fun result => I (.done result) := by
  induction job with
  | done result => exact L.pure (Q := fun result => I (.done result)) result
  | step change events rest ih =>
    rw [Job.finish_step]
    exact L.bind (h _) ih

/-- What holds of the jobs stays when one of them takes its next step. -/
def Keeps (I : List (Job ρ) → W → Prop) : Prop :=
  ∀ before job after,
    L.triple (I (before ++ job :: after)) job.advance fun job => I (before ++ job :: after)

variable {L} {I : List (Job ρ) → W → Prop} (h : L.Keeps I)
include h

/-- A job in the hands of a worker at a place among others. -/
theorem Keeps.settle (before after : List (Job ρ)) (p : Piece ρ) :
    L.triple (I (before ++ p.job :: after)) p.settle fun p => I (before ++ p.job :: after) := by
  unfold Piece.settle
  split
  · refine L.bind'
      (L.finish (I := fun job => I (before ++ job :: after)) p.job fun job => h before job after) ?_
    exact fun result => L.pure (Q := fun p => I (before ++ p.job :: after))
      { p with job := .done result }
  · exact L.pure (Q := fun p => I (before ++ p.job :: after)) p

theorem Keeps.takeTurn (workers : Nat) (pieces : List (Piece ρ)) (number : Nat) :
    L.triple (I (pieces.map Piece.job)) (takeTurn workers pieces number) fun ps =>
      I (ps.map Piece.job) := by
  unfold ScriptLint.takeTurn
  split
  · exact L.pure (Q := fun ps => I (ps.map Piece.job)) pieces
  · next p hp =>
    split
    · exact L.pure (Q := fun ps => I (ps.map Piece.job)) pieces
    obtain ⟨hlt, rfl⟩ := List.getElem?_eq_some_iff.mp hp
    have hset (q : Piece ρ) : (pieces.set number q).map Piece.job =
        (pieces.take number).map Piece.job ++
          q.job :: (pieces.drop (number + 1)).map Piece.job := by
      rw [List.set_eq_take_append_cons_drop, if_pos hlt, List.map_append, List.map_cons]
    have hmap := hset pieces[number]
    rw [List.set_getElem_self] at hmap
    rw [hmap]
    refine L.bind' (Q := fun q => I ((pieces.set number q).map Piece.job)) ?_ fun q =>
      L.pure (Q := fun ps => I (ps.map Piece.job)) (pieces.set number q)
    simp only [hset]
    exact L.map (Q := fun q : Piece ρ => I (_ ++ q.job :: _)) (h _ _ _)

/-- The run lemma: what each step of a job keeps, all workers together keep, however they take their
turns. -/
theorem Keeps.work (workers : Nat) (turns : List Nat) (jobs : List (Job ρ)) :
    L.triple (I jobs) (work workers turns jobs) fun results => I (results.map .done) := by
  unfold ScriptLint.work
  refine L.bind' (Q := fun ps => I (ps.map Piece.job)) ?_ fun pieces => ?_
  · have hturns := L.foldlM (I := fun ps => I (ps.map Piece.job)) (h.takeTurn workers)
      (jobs.map fun job => { job }) (if workers ≤ 1 then [] else turns)
    simpa [Function.comp_def] using hturns
  refine L.bind' (Q := fun ps => I (ps.map Piece.job)) ?_ fun settled => ?_
  · have hsettle :=
      L.mapM (f := Piece.settle) (I := fun ps rest => I (ps.map Piece.job ++ rest.map Piece.job))
      [] pieces fun done p _ rest => ?_
    · simpa using hsettle
    · simpa using h.settle (done.map Piece.job) (rest.map Piece.job) p
  · have hfinish := L.mapM (f := fun p => p.job.finish)
      (I := fun rs rest => I (rs.map .done ++ rest.map Piece.job))
        [] settled fun done p _ rest => ?_
    · simpa using hfinish
    · simpa using L.finish (I := fun job => I (done.map .done ++ job :: rest.map Piece.job)) p.job
        fun job => h _ job _

end Logic

/-! ## Job by job -/

namespace Job

/-- Each step of the job keeps what holds of the world, and what the job comes to has a property. -/
inductive Passes (L : Logic W) (P : W → Prop) (Q : ρ → Prop) : Job ρ → Prop
  | done {result : ρ} (h : Q result) : Passes L P Q (.done result)
  | step {change : FileTree → FileTree} {events : FileTree → List Event} {rest : FileTree → Job ρ}
      {J : Job ρ → Prop} (hJ : ∀ job, J job → Passes L P Q job)
      (hs : L.triple P (Job.step change events rest).advance fun job w => J job ∧ P w) :
      Passes L P Q (.step change events rest)

namespace Passes

variable {L : Logic W} {P : W → Prop} {Q : ρ → Prop} {Q' : ρ' → Prop} {job : Job ρ}

theorem once {x : Traced ρ} (h : L.triple P x fun a w => Q a ∧ P w) :
    (Job.once x).Passes L P Q := by
  refine .step (J := fun job => ∃ a, Q a ∧ job = .done a) ?_ ?_
  · rintro _ ⟨a, ha, rfl⟩
    exact .done ha
  · show L.triple P (Job.once x).advance _
    rw [Job.advance_once]
    refine L.map (L.imp h ?_)
    exact fun a w hw => ⟨⟨a, hw.1, rfl⟩, hw.2⟩

theorem bind {next : ρ → Job ρ'} (hj : job.Passes L P Q)
    (hn : ∀ result, Q result → (next result).Passes L P Q') :
    (job >>= next).Passes L P Q' := by
  induction hj with
  | done h => exact hn _ h
  | @step change events rest J _ hs ih =>
    refine .step (J := fun job' => ∃ job, J job ∧ job' = job >>= next) ?_ ?_
    · rintro _ ⟨job, hJ, rfl⟩
      exact ih job hJ
    · show L.triple P (Job.step change events rest >>= next).advance _
      rw [Job.advance_bind_step]
      refine L.map (L.imp hs ?_)
      exact fun job w hw => ⟨⟨job, hw.1, rfl⟩, hw.2⟩

theorem pure {result : ρ} (h : Q result) : (Pure.pure result : Job ρ).Passes L P Q :=
  .done h

theorem mono {Q' : ρ → Prop} (hj : job.Passes L P Q) (h : ∀ result, Q result → Q' result) :
    job.Passes L P Q' := by
  induction hj with
  | done hq => exact .done (h _ hq)
  | step _ hs ih => exact .step ih hs

/-- The step lemma. -/
theorem advance (hj : job.Passes L P Q) :
    L.triple P job.advance fun job w => job.Passes L P Q ∧ P w := by
  cases hj with
  | @done result h =>
    refine L.conseq fun w hw => ⟨P, fun job w => job = .done result ∧ P w, hw, ?_, ?_⟩
    · have hpure := L.pure (Q := fun job w => job = .done result ∧ P w) (Job.done result)
      simp only [true_and] at hpure
      exact hpure
    · rintro _ w ⟨rfl, hw⟩
      exact ⟨.done h, hw⟩
  | step hJ hs => exact L.imp hs fun job w hw => ⟨hJ job hw.1, hw.2⟩

end Passes

end Job

/-- The partner of an element in the midst of a list, and what may stand in the places of both. -/
theorem forall₂_append_cons {R : κ → α → Prop} {keys : List κ} {before after : List α} {a : α}
    (h : List.Forall₂ R keys (before ++ a :: after)) :
    ∃ kbefore key kafter, keys = kbefore ++ key :: kafter ∧ R key a ∧
      ∀ key' a', R key' a' →
        List.Forall₂ R (kbefore ++ key' :: kafter) (before ++ a' :: after) := by
  induction before generalizing keys with
  | nil =>
    cases h with
    | cons hkey hrest => exact ⟨[], _, _, rfl, hkey, fun _ _ ha' => .cons ha' hrest⟩
  | cons b before ih =>
    cases h with
    | cons hb hrest =>
      obtain ⟨kbefore, key, kafter, rfl, hkey, hothers⟩ := ih hrest
      exact ⟨_ :: kbefore, key, kafter, rfl, hkey,
        fun key' a' ha' => .cons hb (hothers key' a' ha')⟩

/-- Jobs that keep what holds of the world, however the workers take their turns. -/
theorem Logic.work_passes (L : Logic W) {P : W → Prop} {E : κ → ρ → Prop} {keys : List κ}
    {job : κ → Job ρ}
    (h : ∀ key ∈ keys, (job key).Passes L P (E key)) (workers : Nat) (turns : List Nat) :
    L.triple P (ScriptLint.work workers turns (keys.map job)) fun results w =>
      List.Forall₂ E keys results ∧ P w := by
  have hjobs : List.Forall₂ (fun key job => job.Passes L P (E key)) keys (keys.map job) :=
    List.forall₂_map_right_iff.mpr (List.forall₂_same.mpr h)
  have hkeeps : L.Keeps fun jobs w =>
      List.Forall₂ (fun key job => job.Passes L P (E key)) keys jobs ∧ P w := by
    refine fun before job after => L.conseq fun w hw => ?_
    obtain ⟨_, key, _, rfl, hkey, hothers⟩ := forall₂_append_cons hw.1
    exact ⟨P, _, hw.2, hkey.advance, fun job' w hj => ⟨hothers key job' hj.1, hj.2⟩⟩
  refine L.conseq fun w hw =>
    ⟨_, _, ⟨hjobs, hw⟩, hkeeps.work workers turns _, fun results w hr => ⟨?_, hr.2⟩⟩
  exact (List.forall₂_map_right_iff.mp hr.1).imp fun key result hp => by cases hp; assumption

/-! ## Logics -/

namespace Logic

/-- What holds of the trace so far and of the files. -/
def ofRun : Logic (List Event × FileTree) where
  triple P x Q := ∀ es t, P (es, t) → Q (x.runOn t).1 (es ++ x.eventsOn t, (x.runOn t).2)
  pure a es t h := by simpa using h
  bind hx hn es t h := by
    have hnext := hn t _ _ (hx es t h)
    rwa [List.append_assoc] at hnext
  conseq h es t hw := by
    obtain ⟨P', Q', hP, htriple, hQ⟩ := h _ hw
    exact hQ _ _ (htriple es t hP)

/-- What holds of the files of two runs that come to the same. -/
def ofTwo : Logic (FileTree × FileTree) where
  triple P x Q := ∀ t t', P (t, t') →
    (x.runOn t').1 = (x.runOn t).1 ∧ x.eventsOn t' = x.eventsOn t ∧
      Q (x.runOn t).1 ((x.runOn t).2, (x.runOn t').2)
  pure a t t' h := ⟨rfl, rfl, h⟩
  bind {α β P Q Q' x next} hx hn t t' h := by
    obtain ⟨hanswer, hevents, hQ⟩ := hx t t' h
    obtain ⟨hanswer', hevents', hQ'⟩ := hn t _ _ hQ
    simp only [Traced.runOn_bind, Traced.eventsOn_bind, hanswer, hevents]
    exact ⟨hanswer', congrArg (x.eventsOn t ++ ·) hevents', hQ'⟩
  conseq h t t' hw := by
    obtain ⟨P', Q', hP, htriple, hQ⟩ := h _ hw
    obtain ⟨hanswer, hevents, hQ'⟩ := htriple t t' hP
    exact ⟨hanswer, hevents, hQ _ _ hQ'⟩

/-- What a step gives if all that it leaves in the trace is among some events. -/
def within (all : List Event) : Logic Unit where
  triple P x Q := P () → ∀ t, x.eventsOn t ⊆ all → Q (x.runOn t).1 ()
  pure a h t _ := h
  bind {α β P Q Q' x next} hx hn h t hall := by
    rw [Traced.eventsOn_bind, List.append_subset] at hall
    exact hn t (hx h t hall.1) _ hall.2
  conseq h hw t hall := by
    obtain ⟨P', Q', hP, htriple, hQ⟩ := h () hw
    exact hQ _ _ (htriple hP t hall)

end Logic

/-! ## Progress -/

theorem length_work (workers : Nat) (turns : List Nat) (jobs : List (Job ρ)) (t : FileTree) :
    ((work workers turns jobs).runOn t).1.length = jobs.length := by
  have hkeeps : Logic.ofRun.Keeps fun (js : List (Job ρ)) _ => js.length = jobs.length :=
    fun before job after es t h => by
    simpa using h
  simpa using hkeeps.work workers turns jobs [] t rfl

theorem Progress.positions_eq (p : Progress) (files : Nat) :
    p.positions files = List.range' (p.done + 1) files := by
  induction files generalizing p with
  | zero => rfl
  | succ files ih => rw [positions, ih, List.range'_succ, advance]

/-- A count that advances with each result goes through all numbers up to the total, however the
workers take their turns. -/
theorem Progress.positions_work (label : String) (workers : Nat) (turns : List Nat)
    (jobs : List (Job ρ)) (t : FileTree) :
    Progress.positions { total := jobs.length, label }
      ((work workers turns jobs).runOn t).1.length =
      List.range' 1 jobs.length := by
  rw [positions_eq, length_work]

end ScriptLint
