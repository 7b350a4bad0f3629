import Mathlib.Logic.Function.Basic
import HotelMs.Lib.Interleave

/-!
# Copies kept by refresh and remove tasks

A source has at most one document under each key. A copy of it is kept by
tasks: a change of the source sends a task for the key it changed, and a worker
later reads the source anew and writes what it read, or removes the key. The
read and the write of a refresh are two steps, and any steps of other tasks can
come between them.
-/

namespace Mirror

open Runs Interleave

inductive Errand (κ : Type*)
  | refresh (keys : κ → Bool)
  | remove (k : κ)

/-- Where a task stands: its change is committed, the broker has it, a worker
has read the source for it, or it ended without being acknowledged yet. -/
inductive Job (κ δ : Type*)
  | idle
  | unsent (t : Errand κ)
  | queued (t : Errand κ)
  | holding (keys : κ → Bool) (seen : κ → Option δ)
  | done (t : Errand κ)

variable {σ α κ δ : Type*}

/-- Whether the task is about the key. -/
def Errand.Touches (k : κ) : Errand κ → Prop
  | .refresh keys => keys k = true
  | .remove k' => k' = k

/-- A source whose changes send tasks: a refresh is sent for documents that are
there, a removal for a key that never has a document again. -/
structure Source (σ α κ δ : Type*) where
  read : σ → κ → Option δ
  act : σ → α → σ × Option (Errand κ)
  Gone : σ → κ → Prop
  read_gone : ∀ {s k}, Gone s k → read s k = none
  gone_act : ∀ {s k} a, Gone s k → Gone (act s a).1 k
  read_act : ∀ s a k, (∀ t, (act s a).2 = some t → ¬t.Touches k) →
    read (act s a).1 k = read s k
  refresh_act : ∀ {s a keys k}, (act s a).2 = some (.refresh keys) → keys k = true →
    read (act s a).1 k ≠ none
  remove_act : ∀ {s a k}, (act s a).2 = some (.remove k) → Gone (act s a).1 k

/-- The source and its copy. -/
structure Data (σ κ δ : Type*) where
  source : σ
  copy : κ → Option δ

/-- What a worker, a client or the broker does with one task. -/
inductive Move (α κ : Type*)
  | change (a : α)
  | launch (keys : κ → Bool)
  | send
  | start
  | finish
  | drop
  | redeliver
  | ack

/-- Documents that were not there when they were read are not written. -/
def overwrite (keys : κ → Bool) (seen copy : κ → Option δ) (k : κ) : Option δ :=
  if keys k then (seen k).or (copy k) else copy k

theorem overwrite_written {keys : κ → Bool} {seen copy : κ → Option δ} {k : κ}
    (hkey : keys k = true) (hseen : seen k ≠ none) : overwrite keys seen copy k = seen k := by
  obtain ⟨doc, hdoc⟩ := Option.ne_none_iff_exists'.mp hseen
  rw [overwrite, if_pos hkey, hdoc, Option.some_or]

theorem overwrite_unwritten {keys : κ → Bool} {seen copy : κ → Option δ} {k : κ}
    (h : ¬(keys k = true ∧ seen k ≠ none)) : overwrite keys seen copy k = copy k := by
  unfold overwrite
  split
  · rename_i hkey
    have hnone : seen k = none := by
      by_contra hseen
      exact h ⟨hkey, hseen⟩
    rw [hnone, Option.none_or]
  · rfl

/-- `drop` is a send, a read or a write that failed: the task is lost. -/
def jobStep [DecidableEq κ] (src : Source σ α κ δ) :
    Move α κ → Data σ κ δ → Job κ δ → Job κ δ × Data σ κ δ
  | .change a, d, .idle =>
    ((src.act d.source a).2.elim .idle .unsent, { d with source := (src.act d.source a).1 })
  | .launch keys, d, .idle => (.queued (.refresh keys), d)
  | .send, d, .unsent t => (.queued t, d)
  | .start, d, .queued (.refresh keys) => (.holding keys (src.read d.source), d)
  | .finish, d, .holding keys seen =>
    (.done (.refresh keys), { d with copy := overwrite keys seen d.copy })
  | .finish, d, .queued (.remove k) =>
    (.done (.remove k), { d with copy := Function.update d.copy k none })
  | .drop, d, _ => (.idle, d)
  | .redeliver, d, .holding keys _ => (.queued (.refresh keys), d)
  | .redeliver, d, .done t => (.queued t, d)
  | .ack, d, .done _ => (.idle, d)
  | _, d, j => (j, d)

abbrev World (σ κ δ : Type*) := Shared (Data σ κ δ) (Job κ δ)

abbrev Event (α κ : Type*) := Turn (Move α κ)

def step [DecidableEq κ] (src : Source σ α κ δ) : World σ κ δ → Event α κ → World σ κ δ :=
  turnStep (jobStep src)

/-! ### Coverage -/

variable (src : Source σ α κ δ)

/-- Run to its end from here, the task leaves the copy right at this key. -/
def Errand.Restores (s : σ) (k : κ) : Errand κ → Prop
  | .refresh keys => keys k = true ∧ src.read s k ≠ none
  | .remove k' => k' = k ∧ src.read s k = none

def Job.Restores (s : σ) (k : κ) : Job κ δ → Prop
  | .unsent t | .queued t => t.Restores src s k
  | .holding keys seen => keys k = true ∧ seen k ≠ none ∧ seen k = src.read s k
  | .idle | .done _ => False

/-- The copy is right at this key, or a task under way will make it so. -/
def CoveredAt (w : World σ κ δ) (k : κ) : Prop :=
  w.data.copy k = src.read w.data.source k ∨ ∃ i, (w.tasks i).Restores src w.data.source k

def Covered (w : World σ κ δ) : Prop := ∀ k, CoveredAt src w k

/-- A lost task, and a write of documents that are out of date, is made up for
by another task under way, or there was nothing to write. -/
def MadeUp (w : World σ κ δ) (e : Event α κ) : Prop :=
  match e.env, w.tasks e.task with
  | .drop, j => ∀ k, j.Restores src w.data.source k →
    w.data.copy k = src.read w.data.source k ∨
      ∃ i ≠ e.task, (w.tasks i).Restores src w.data.source k
  | .finish, .holding keys seen => ∀ k, keys k = true → seen k ≠ none →
    seen k ≠ src.read w.data.source k → ∃ i ≠ e.task, (w.tasks i).Restores src w.data.source k
  | _, _ => True

def Job.Removes (k : κ) : Job κ δ → Prop
  | .unsent t | .queued t | .done t => t = .remove k
  | .idle | .holding _ _ => False

/-- Removals are about keys that are gone. -/
def RemovesGone (w : World σ κ δ) : Prop :=
  ∀ i k, (w.tasks i).Removes k → src.Gone w.data.source k

/-- No task is under way. -/
def Settled (w : World σ κ δ) : Prop := ∀ i, w.tasks i = .idle ∨ ∃ t, w.tasks i = .done t

variable {src}

theorem Settled.copy_eq {w : World σ κ δ} (hs : Settled w) (hc : Covered src w) :
    w.data.copy = src.read w.data.source := by
  funext k
  rcases hc k with hcopy | ⟨i, hi⟩
  · exact hcopy
  · rcases hs i with hidle | ⟨t, ht⟩
    · rw [hidle] at hi
      exact hi.elim
    · rw [ht] at hi
      exact hi.elim

theorem Job.restores_congr {s s' : σ} {k : κ} (h : src.read s' k = src.read s k)
    (j : Job κ δ) : j.Restores src s' k ↔ j.Restores src s k := by
  cases j with
  | idle => exact Iff.rfl
  | done t => exact Iff.rfl
  | holding keys seen => simp only [Job.Restores, h]
  | unsent t => cases t <;> simp only [Job.Restores, Errand.Restores, h]
  | queued t => cases t <;> simp only [Job.Restores, Errand.Restores, h]

theorem Errand.restores_sent {s : σ} {a : α} {t : Errand κ} {k : κ}
    (ht : (src.act s a).2 = some t) (hk : t.Touches k) :
    t.Restores src (src.act s a).1 k := by
  cases t with
  | refresh keys => exact ⟨hk, src.refresh_act ht hk⟩
  | remove k' =>
    obtain rfl : k' = k := hk
    exact ⟨rfl, src.read_gone (src.remove_act ht)⟩

/-- The task of the event apart from the others. -/
theorem coveredAt_iff (w : World σ κ δ) (k : κ) (i : ℕ) :
    CoveredAt src w k ↔ w.data.copy k = src.read w.data.source k ∨
      (w.tasks i).Restores src w.data.source k ∨
      ∃ j ≠ i, (w.tasks j).Restores src w.data.source k := by
  constructor
  · rintro (hcopy | ⟨j, hj⟩)
    · exact Or.inl hcopy
    · by_cases hij : j = i
      · rw [hij] at hj
        exact Or.inr (Or.inl hj)
      · exact Or.inr (Or.inr ⟨j, hij, hj⟩)
  · rintro (hcopy | hi | ⟨j, -, hj⟩)
    · exact Or.inl hcopy
    · exact Or.inr ⟨i, hi⟩
    · exact Or.inr ⟨j, hj⟩

/-! ### Tasks of one key taken in turn -/

variable {w : World σ κ δ} {e : Event α κ}

def Job.Holds (k : κ) : Job κ δ → Prop
  | .holding keys _ => keys k = true
  | _ => False

/-- The task has not read the source yet. -/
def Job.Waits : Job κ δ → Prop
  | .unsent _ | .queued _ => True
  | _ => False

/-- No task is lost, and none is taken up while another one holds documents
under its keys. -/
def InTurn (w : World σ κ δ) (e : Event α κ) : Prop :=
  match e.env, w.tasks e.task with
  | .drop, _ => False
  | .start, .queued (.refresh keys) => ∀ k, keys k = true → ∀ i, ¬(w.tasks i).Holds k
  | .finish, .queued (.remove k) => ∀ i, ¬(w.tasks i).Holds k
  | _, _ => True

variable (src) in
/-- What a task holds is what the source has, or another task will still read it. -/
def Backed (w : World σ κ δ) : Prop :=
  ∀ i keys seen, w.tasks i = .holding keys seen → ∀ k, keys k = true →
    seen k = src.read w.data.source k ∨
      ∃ j, (w.tasks j).Waits ∧ (w.tasks j).Restores src w.data.source k

theorem Backed.madeUp (hb : Backed src w) (ht : InTurn w e) : MadeUp src w e := by
  unfold MadeUp
  split
  · rename_i hm
    simp only [InTurn, hm] at ht
  · rename_i keys seen hm hj
    intro k hk _ hne
    rcases hb e.task keys seen hj k hk with hread | ⟨j, hwait, hres⟩
    · exact absurd hread hne
    · refine ⟨j, ?_, hres⟩
      rintro rfl
      rw [hj] at hwait
      exact hwait
  · trivial

/-! ### What one step does -/

section

variable [DecidableEq κ]

/-- The cases of `jobStep`: beside a change, a lost task and the two writes, no
step touches the data, and a task that restores a key goes on doing so. -/
theorem jobStep_cases (src : Source σ α κ δ) (m : Move α κ) (d : Data σ κ δ) (j : Job κ δ) :
    (∃ a, m = .change a ∧ j = .idle) ∨ m = .drop ∨
    (∃ keys seen, m = .finish ∧ j = .holding keys seen) ∨
    (∃ k, m = .finish ∧ j = .queued (.remove k)) ∨
    ((jobStep src m d j).2 = d ∧
      (∀ k, j.Restores src d.source k → (jobStep src m d j).1.Restores src d.source k) ∧
      (m ≠ .finish ∨ ∀ keys seen, j ≠ .holding keys seen)) := by
  cases m with
  | change a =>
    cases j with
    | idle => exact Or.inl ⟨a, rfl, rfl⟩
    | _ => exact Or.inr (Or.inr (Or.inr (Or.inr ⟨rfl, fun _ h => h, Or.inl nofun⟩)))
  | drop => exact Or.inr (Or.inl rfl)
  | finish =>
    cases j with
    | holding keys seen => exact Or.inr (Or.inr (Or.inl ⟨keys, seen, rfl, rfl⟩))
    | queued t =>
      cases t with
      | remove k => exact Or.inr (Or.inr (Or.inr (Or.inl ⟨k, rfl, rfl⟩)))
      | refresh keys => exact Or.inr (Or.inr (Or.inr (Or.inr ⟨rfl, fun _ h => h, Or.inr nofun⟩)))
    | _ => exact Or.inr (Or.inr (Or.inr (Or.inr ⟨rfl, fun _ h => h, Or.inr nofun⟩)))
  | start =>
    refine Or.inr (Or.inr (Or.inr (Or.inr ⟨?_, ?_, Or.inl nofun⟩)))
    · cases j with
      | queued t => cases t <;> rfl
      | _ => rfl
    · cases j with
      | queued t =>
        cases t with
        | remove k => exact fun _ h => h
        | refresh keys =>
          rintro k ⟨hkey, hread⟩
          exact ⟨hkey, hread, rfl⟩
      | _ => exact fun _ h => h
  | launch keys =>
    refine Or.inr (Or.inr (Or.inr (Or.inr ⟨?_, ?_, Or.inl nofun⟩)))
    · cases j <;> rfl
    · cases j with
      | idle => exact fun _ h => h.elim
      | _ => exact fun _ h => h
  | send =>
    refine Or.inr (Or.inr (Or.inr (Or.inr ⟨?_, ?_, Or.inl nofun⟩)))
    · cases j <;> rfl
    · cases j <;> exact fun _ h => h
  | redeliver =>
    refine Or.inr (Or.inr (Or.inr (Or.inr ⟨?_, ?_, Or.inl nofun⟩)))
    · cases j <;> rfl
    · cases j with
      | holding keys seen =>
        rintro k ⟨hkey, hseen, hread⟩
        exact ⟨hkey, by rwa [← hread]⟩
      | done t => exact fun _ h => h.elim
      | _ => exact fun _ h => h
  | ack =>
    refine Or.inr (Or.inr (Or.inr (Or.inr ⟨?_, ?_, Or.inl nofun⟩)))
    · cases j <;> rfl
    · cases j <;> exact fun _ h => h

theorem coveredAt_step (k : κ) :
    CoveredAt src (step src w e) k ↔
      (jobStep src e.env w.data (w.tasks e.task)).2.copy k =
        src.read (jobStep src e.env w.data (w.tasks e.task)).2.source k ∨
      (jobStep src e.env w.data (w.tasks e.task)).1.Restores src
        (jobStep src e.env w.data (w.tasks e.task)).2.source k ∨
      ∃ j ≠ e.task, (w.tasks j).Restores src
        (jobStep src e.env w.data (w.tasks e.task)).2.source k := by
  have hothers : (∃ j ≠ e.task, ((step src w e).tasks j).Restores src
        (step src w e).data.source k) ↔
      ∃ j ≠ e.task, (w.tasks j).Restores src (step src w e).data.source k := by
    refine exists_congr fun j => and_congr_right fun hj => ?_
    rw [step, tasks_of_ne w hj]
  rw [coveredAt_iff _ k e.task, hothers, step, tasks_self]
  rfl

/-- A removal was there before, or the change of this step sent it. -/
theorem removes_jobStep {m : Move α κ} {d : Data σ κ δ} {j : Job κ δ} {k : κ}
    (h : (jobStep src m d j).1.Removes k) :
    j.Removes k ∨ ∃ a, m = .change a ∧ (src.act d.source a).2 = some (.remove k) := by
  cases m with
  | change a =>
    cases j with
    | idle =>
      right
      refine ⟨a, rfl, ?_⟩
      cases ht : (src.act d.source a).2 with
      | none =>
        simp only [jobStep, ht, Option.elim_none] at h
        exact h.elim
      | some t =>
        simp only [jobStep, ht, Option.elim_some] at h
        rw [show t = .remove k from h]
    | _ => exact Or.inl h
  | drop => cases j <;> exact h.elim
  | launch keys =>
    cases j with
    | idle => cases h
    | _ => exact Or.inl h
  | redeliver =>
    cases j with
    | holding keys seen => cases h
    | _ => exact Or.inl h
  | ack =>
    cases j with
    | done t => exact h.elim
    | _ => exact Or.inl h
  | send => cases j <;> exact Or.inl h
  | start =>
    cases j with
    | queued t =>
      cases t with
      | refresh keys => exact h.elim
      | remove k' => exact Or.inl h
    | _ => exact Or.inl h
  | finish =>
    cases j with
    | holding keys seen => cases h
    | queued t => cases t <;> exact Or.inl h
    | _ => exact Or.inl h

theorem source_jobStep (src : Source σ α κ δ) (m : Move α κ) (d : Data σ κ δ) (j : Job κ δ) :
    (∃ a, m = .change a ∧ j = .idle) ∨ (jobStep src m d j).2.source = d.source := by
  rcases jobStep_cases src m d j with
    ⟨a, rfl, rfl⟩ | rfl | ⟨keys, seen, rfl, rfl⟩ | ⟨k', rfl, rfl⟩ | ⟨hd, -, -⟩
  · exact Or.inl ⟨a, rfl, rfl⟩
  · right
    cases j <;> rfl
  · exact Or.inr rfl
  · exact Or.inr rfl
  · exact Or.inr (congrArg Data.source hd)

theorem gone_jobStep {m : Move α κ} {d : Data σ κ δ} {j : Job κ δ} {k : κ}
    (h : src.Gone d.source k) : src.Gone (jobStep src m d j).2.source k := by
  rcases jobStep_cases src m d j with
    ⟨a, rfl, rfl⟩ | rfl | ⟨keys, seen, rfl, rfl⟩ | ⟨k', rfl, rfl⟩ | ⟨hd, -, -⟩
  · exact src.gone_act a h
  · cases j <;> exact h
  · exact h
  · exact h
  · rwa [hd]

theorem RemovesGone.step (hr : RemovesGone src w) : RemovesGone src (step src w e) := by
  intro i k hk
  by_cases hi : i = e.task
  · rw [hi, Mirror.step, tasks_self] at hk
    rcases removes_jobStep hk with hold | ⟨a, hm, ht⟩
    · exact gone_jobStep (hr e.task k hold)
    · have hgone := src.remove_act ht
      rw [Mirror.step, turnStep, hm]
      cases hj : w.tasks e.task with
      | idle => exact hgone
      | _ =>
        rw [hm, hj] at hk
        exact hr e.task k (by rw [hj]; exact hk)
  · rw [Mirror.step, tasks_of_ne w hi] at hk
    exact gone_jobStep (hr i k hk)

theorem coveredAt_change {a : α} (hm : e.env = .change a) (hj : w.tasks e.task = .idle)
    {k : κ} (hc : CoveredAt src w k) : CoveredAt src (step src w e) k := by
  rw [coveredAt_step, hm, hj]
  dsimp only [jobStep]
  by_cases htouched : ∃ t, (src.act w.data.source a).2 = some t ∧ t.Touches k
  · obtain ⟨t, ht, hk⟩ := htouched
    refine Or.inr (Or.inl ?_)
    have hrestores := Errand.restores_sent ht hk
    rw [ht]
    exact hrestores
  · have hread : src.read (src.act w.data.source a).1 k = src.read w.data.source k :=
      src.read_act w.data.source a k fun t ht hk => htouched ⟨t, ht, hk⟩
    rw [coveredAt_iff w k e.task, hj] at hc
    rcases hc with hcopy | hidle | ⟨j, hne, hres⟩
    · exact Or.inl (hcopy.trans hread.symm)
    · exact hidle.elim
    · exact Or.inr (Or.inr ⟨j, hne, (Job.restores_congr hread _).mpr hres⟩)

/-- A step leaves everything covered exactly if what it spoils is made up for. -/
theorem covered_step_iff (hr : RemovesGone src w) (hc : Covered src w) :
    Covered src (step src w e) ↔ MadeUp src w e := by
  rcases jobStep_cases src e.env w.data (w.tasks e.task) with
    ⟨a, hm, hj⟩ | hm | ⟨keys, seen, hm, hj⟩ | ⟨k', hm, hj⟩ | ⟨hd, hkeep, hfinish⟩
  · simp only [MadeUp, hm, hj, iff_true]
    exact fun k => coveredAt_change hm hj (hc k)
  · have hlost : jobStep src e.env w.data (w.tasks e.task) = (.idle, w.data) := by
      rw [hm]
      cases w.tasks e.task <;> rfl
    simp only [MadeUp, hm]
    refine forall_congr' fun k => ?_
    have hk := hc k
    rw [coveredAt_iff w k e.task] at hk
    rw [coveredAt_step, hlost]
    constructor
    · rintro (hcopy | hidle | hothers) -
      · exact Or.inl hcopy
      · exact hidle.elim
      · exact Or.inr hothers
    · intro h
      rcases hk with hcopy | hown | hothers
      · exact Or.inl hcopy
      · rcases h hown with hcopy | hothers
        · exact Or.inl hcopy
        · exact Or.inr (Or.inr hothers)
      · exact Or.inr (Or.inr hothers)
  · simp only [MadeUp, hm, hj]
    refine forall_congr' fun k => ?_
    have hk := hc k
    rw [coveredAt_iff w k e.task, hj] at hk
    rw [coveredAt_step, hm, hj]
    dsimp only [jobStep]
    by_cases hw : keys k = true ∧ seen k ≠ none
    · rw [overwrite_written hw.1 hw.2]
      constructor
      · rintro (hcopy | hdone | hothers) - - hne
        · exact absurd hcopy hne
        · exact hdone.elim
        · exact hothers
      · intro h
        by_cases hread : seen k = src.read w.data.source k
        · exact Or.inl hread
        · exact Or.inr (Or.inr (h hw.1 hw.2 hread))
    · rw [overwrite_unwritten hw]
      refine iff_of_true ?_ fun hkey hseen => absurd ⟨hkey, hseen⟩ hw
      rcases hk with hcopy | hown | hothers
      · exact Or.inl hcopy
      · exact absurd ⟨hown.1, hown.2.1⟩ hw
      · exact Or.inr (Or.inr hothers)
  · simp only [MadeUp, hm, hj, iff_true]
    have hgone : src.read w.data.source k' = none :=
      src.read_gone (hr e.task k' (by rw [hj]; rfl))
    intro k
    have hk := hc k
    rw [coveredAt_iff w k e.task, hj] at hk
    rw [coveredAt_step, hm, hj]
    dsimp only [jobStep]
    by_cases hkk : k = k'
    · rw [hkk, Function.update_self]
      exact Or.inl hgone.symm
    · rw [Function.update_of_ne hkk]
      rcases hk with hcopy | ⟨hown, -⟩ | hothers
      · exact Or.inl hcopy
      · exact absurd hown.symm hkk
      · exact Or.inr (Or.inr hothers)
  · refine iff_of_true ?_ ?_
    · intro k
      have hk := hc k
      rw [coveredAt_iff w k e.task] at hk
      rw [coveredAt_step, hd]
      rcases hk with hcopy | hown | hothers
      · exact Or.inl hcopy
      · exact Or.inr (Or.inl (hkeep k hown))
      · exact Or.inr (Or.inr hothers)
    · unfold MadeUp
      split
      · rename_i hm
        intro k hk
        have hidle := hkeep k hk
        rw [hm] at hidle
        cases hj : w.tasks e.task <;> rw [hj] at hidle <;> exact hidle.elim
      · rename_i keys seen hm hj
        rcases hfinish with hne | hne
        · exact absurd hm hne
        · exact absurd hj (hne keys seen)
      · trivial

/-- In every run all keys stay covered exactly if each step that loses a task or
writes old documents is made up for by a task still under way. -/
theorem always_covered_iff {es : List (Event α κ)} (hr : RemovesGone src w)
    (hc : Covered src w) :
    Always (step src) (Covered src) w es ↔ Along (step src) (MadeUp src) w es :=
  always_iff_along (Q := fun _ _ => True) (fun _ _ h => h.step)
    (fun _ _ hr _ hc => covered_step_iff hr hc) (along_of_forall fun _ _ _ => trivial) hr hc

/-- Nothing new: no change, no launch, and no task delivered a second time. -/
def Drains : Event α κ → Prop
  | ⟨_, .send⟩ | ⟨_, .start⟩ | ⟨_, .finish⟩ | ⟨_, .drop⟩ | ⟨_, .ack⟩ => True
  | _ => False

/-- A drain step brings no key under cover. -/
theorem coveredAt_of_step {k : κ} (hd : Drains e) (h : CoveredAt src (step src w e) k) :
    CoveredAt src w k := by
  obtain ⟨i, m⟩ := e
  rw [coveredAt_step] at h
  rw [coveredAt_iff w k i]
  dsimp only at h
  generalize w.tasks i = j at h ⊢
  cases m with
  | change a => exact hd.elim
  | launch keys => exact hd.elim
  | redeliver => exact hd.elim
  | send => cases j <;> exact h
  | ack =>
    cases j with
    | done t => exact h.imp_right (Or.imp_left fun hidle => hidle.elim)
    | _ => exact h
  | drop =>
    cases j <;> exact h.imp_right (Or.imp_left fun hidle => hidle.elim)
  | start =>
    cases j with
    | queued t =>
      cases t with
      | refresh keys =>
        refine h.imp_right (Or.imp_left ?_)
        rintro ⟨hkey, hread, -⟩
        exact ⟨hkey, hread⟩
      | remove k' => exact h
    | _ => exact h
  | finish =>
    cases j with
    | holding keys seen =>
      rcases h with hcopy | hdone | hothers
      · dsimp only [jobStep] at hcopy
        by_cases hw : keys k = true ∧ seen k ≠ none
        · rw [overwrite_written hw.1 hw.2] at hcopy
          exact Or.inr (Or.inl ⟨hw.1, hw.2, hcopy⟩)
        · rw [overwrite_unwritten hw] at hcopy
          exact Or.inl hcopy
      · exact hdone.elim
      · exact Or.inr (Or.inr hothers)
    | queued t =>
      cases t with
      | refresh keys => exact h
      | remove k' =>
        rcases h with hcopy | hdone | hothers
        · dsimp only [jobStep] at hcopy
          by_cases hk : k = k'
          · rw [hk, Function.update_self] at hcopy
            exact Or.inr (Or.inl ⟨hk.symm, by rw [hk, ← hcopy]⟩)
          · rw [Function.update_of_ne hk] at hcopy
            exact Or.inl hcopy
        · exact hdone.elim
        · exact Or.inr (Or.inr hothers)
    | _ => exact h

/-- A key that lost its cover is wrong when all tasks have run. -/
theorem copy_ne_of_uncovered {es : List (Event α κ)} {k : κ} (h : ¬CoveredAt src w k)
    (hd : ∀ e ∈ es, Drains e) :
    (run (step src) w es).data.copy k ≠ src.read (run (step src) w es).data.source k := by
  have hrun : ¬CoveredAt src (run (step src) w es) k :=
    run_invariant (I := fun w => ¬CoveredAt src w k) (P := fun _ e => Drains e)
      (fun w e hn hd hc => hn (coveredAt_of_step hd hc)) h (along_of_forall fun _ e he => hd e he)
  exact fun heq => hrun (Or.inl heq)

/-- Where a task holds the key, a waiting task goes on waiting. -/
theorem waits_jobStep {i : ℕ} {k : κ} (ht : InTurn w e) (hhold : (w.tasks i).Holds k)
    (hwait : (w.tasks e.task).Waits) (hres : (w.tasks e.task).Restores src w.data.source k) :
    (jobStep src e.env w.data (w.tasks e.task)).1.Waits ∧
      (jobStep src e.env w.data (w.tasks e.task)).1.Restores src w.data.source k := by
  unfold InTurn at ht
  generalize e.env = m at ht
  generalize w.tasks e.task = j at ht hwait hres
  cases j with
  | idle => exact hwait.elim
  | holding keys seen => exact hwait.elim
  | done t => exact hwait.elim
  | unsent t =>
    cases m with
    | drop => exact ht.elim
    | _ => exact ⟨hwait, hres⟩
  | queued t =>
    cases m with
    | drop => exact ht.elim
    | start =>
      cases t with
      | refresh keys => exact absurd hhold (ht k hres.1 i)
      | remove k' => exact ⟨hwait, hres⟩
    | finish =>
      cases t with
      | refresh keys => exact ⟨hwait, hres⟩
      | remove k' =>
        obtain rfl : k' = k := hres.1
        exact absurd hhold (ht i)
    | _ => exact ⟨hwait, hres⟩

/-- Who holds documents after a step held them before, or has just read them. -/
theorem holding_jobStep {m : Move α κ} {d : Data σ κ δ} {j : Job κ δ} {keys : κ → Bool}
    {seen : κ → Option δ} (h : (jobStep src m d j).1 = .holding keys seen) :
    (jobStep src m d j).2 = d ∧ (j = .holding keys seen ∨ seen = src.read d.source) := by
  cases m with
  | change a =>
    cases j with
    | idle =>
      cases ht : (src.act d.source a).2 <;> simp [jobStep, ht] at h
    | _ => exact ⟨rfl, Or.inl h⟩
  | drop => cases j <;> cases h
  | start =>
    cases j with
    | queued t =>
      cases t with
      | refresh keys' =>
        obtain ⟨rfl, rfl⟩ : keys' = keys ∧ src.read d.source = seen := by
          simpa [jobStep] using h
        exact ⟨rfl, Or.inr rfl⟩
      | remove k => cases h
    | _ => exact ⟨rfl, Or.inl h⟩
  | finish =>
    cases j with
    | holding keys' seen' => cases h
    | queued t => cases t <;> cases h
    | _ => exact ⟨rfl, Or.inl h⟩
  | launch keys' =>
    cases j with
    | idle => cases h
    | _ => exact ⟨rfl, Or.inl h⟩
  | send =>
    cases j with
    | unsent t => cases h
    | _ => exact ⟨rfl, Or.inl h⟩
  | redeliver =>
    cases j with
    | holding keys' seen' => cases h
    | done t => cases h
    | _ => exact ⟨rfl, Or.inl h⟩
  | ack =>
    cases j with
    | done t => cases h
    | _ => exact ⟨rfl, Or.inl h⟩

theorem Backed.step (hb : Backed src w) (ht : InTurn w e) : Backed src (step src w e) := by
  intro i keys seen hi k hk
  by_cases hie : i = e.task
  · rw [hie, Mirror.step, tasks_self] at hi
    obtain ⟨hd, hold⟩ := holding_jobStep hi
    have hdata : (Mirror.step src w e).data = w.data := hd
    rw [hdata]
    rcases hold with hold | rfl
    · refine (hb e.task keys seen hold k hk).imp_right ?_
      rintro ⟨j, hwait, hres⟩
      have hj : j ≠ e.task := by
        rintro rfl
        rw [hold] at hwait
        exact hwait
      exact ⟨j, by rwa [Mirror.step, tasks_of_ne w hj], by rwa [Mirror.step, tasks_of_ne w hj]⟩
    · exact Or.inl rfl
  · rw [Mirror.step, tasks_of_ne w hie] at hi
    have hread := hb i keys seen hi k hk
    rcases source_jobStep src e.env w.data (w.tasks e.task) with ⟨a, hm, hj⟩ | hsource
    · by_cases htouched : ∃ t, (src.act w.data.source a).2 = some t ∧ t.Touches k
      · obtain ⟨t, hsent, htouch⟩ := htouched
        have hres := Errand.restores_sent hsent htouch
        refine Or.inr ⟨e.task, ?_⟩
        rw [Mirror.step, tasks_self, turnStep, hm, hj]
        dsimp only [jobStep]
        rw [hsent]
        exact ⟨trivial, hres⟩
      · have hsame : src.read (src.act w.data.source a).1 k = src.read w.data.source k :=
          src.read_act w.data.source a k fun t hsent hk => htouched ⟨t, hsent, hk⟩
        have hsource : (Mirror.step src w e).data.source = (src.act w.data.source a).1 := by
          rw [Mirror.step, turnStep, hm, hj]
          rfl
        rw [hsource, hsame]
        refine hread.imp_right ?_
        rintro ⟨j, hwait, hres⟩
        have hne : j ≠ e.task := by
          rintro rfl
          rw [hj] at hwait
          exact hwait
        refine ⟨j, ?_, ?_⟩
        · rwa [Mirror.step, tasks_of_ne w hne]
        · rw [Mirror.step, tasks_of_ne w hne]
          exact (Job.restores_congr hsame _).mpr hres
    · have hsource : (Mirror.step src w e).data.source = w.data.source := hsource
      rw [hsource]
      refine hread.imp_right ?_
      rintro ⟨j, hwait, hres⟩
      by_cases hje : j = e.task
      · rw [hje] at hwait hres
        have hholds : (w.tasks i).Holds k := by
          rw [hi]
          exact hk
        refine ⟨e.task, ?_⟩
        rw [Mirror.step, tasks_self]
        exact waits_jobStep ht hholds hwait hres
      · exact ⟨j, by rwa [Mirror.step, tasks_of_ne w hje],
          by rwa [Mirror.step, tasks_of_ne w hje]⟩

/-- Along every run that takes up the tasks of one key in turn and loses none,
every key stays covered. -/
theorem always_covered_of_inTurn {es : List (Event α κ)} (hr : RemovesGone src w)
    (hc : Covered src w) (hb : Backed src w) (ht : Along (step src) InTurn w es) :
    Always (step src) (Covered src) w es := by
  have hstep : ∀ w e, (RemovesGone src w ∧ Covered src w ∧ Backed src w) → InTurn w e →
      RemovesGone src (Mirror.step src w e) ∧ Covered src (Mirror.step src w e) ∧
        Backed src (Mirror.step src w e) := by
    rintro w e ⟨hr, hc, hb⟩ ht
    exact ⟨hr.step, (covered_step_iff hr hc).mpr (hb.madeUp ht), hb.step ht⟩
  exact (always_of_along hstep ⟨hr, hc, hb⟩ ht).mono fun _ h => h.2.1

end

end Mirror
