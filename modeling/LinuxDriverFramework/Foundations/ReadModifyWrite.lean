import LinuxDriverFramework.Foundations.Runs
import Mathlib.Data.List.Nodup
import Mathlib.Logic.Function.Basic

/-! # Operations that read, then write

A shared state and any number of operations, each of two atomic steps: it takes a snapshot, on
which it may already finish, and later commits. Nothing keeps other operations out in between.

* `Protocol`: what the operations read and what they commit; `exec` is one of them without
  interruption, `serial` all of them one after another.
* `Config`, `step`: the interleaved system, with the operations that have finished in order.
* `UpToDate`: a commit that does what the whole operation would do now.
* `serial_of_upToDate`: a run whose commits are up to date is serial in the order of finishing. -/

namespace Foundations
set_option autoImplicit false

universe u v w x

structure Protocol (σ : Type u) (ι : Type v) (V : Type w) (R : Type x) where
  snapshot : ι → σ → Except R V
  commit : ι → V → σ → σ × R

namespace Protocol

variable {σ : Type u} {ι : Type v} {V : Type w} {R : Type x} (p : Protocol σ ι V R)

/-- The operation without interruption. -/
def exec (i : ι) (s : σ) : σ × R :=
  match p.snapshot i s with
  | .error r => (s, r)
  | .ok v => p.commit i v s

/-- The operations one after another, with what they return. -/
def serial (s : σ) : List ι → σ × List (ι × R)
  | [] => (s, [])
  | i :: is =>
    let r := p.exec i s
    let rest := serial r.1 is
    (rest.1, (i, r.2) :: rest.2)

theorem serial_append (s : σ) (is js : List ι) :
    p.serial s (is ++ js) =
      ((p.serial (p.serial s is).1 js).1, (p.serial s is).2 ++ (p.serial (p.serial s is).1 js).2) := by
  induction is generalizing s with
  | nil => rfl
  | cons i is ih =>
    rw [List.cons_append, serial, ih]
    rfl

inductive Phase (V : Type w) (R : Type x)
  | waiting
  | holding (v : V)
  | finished (r : R)

structure Config (σ : Type u) (ι : Type v) (V : Type w) (R : Type x) where
  shared : σ
  phase : ι → Phase V R
  /-- oldest first -/
  done : List (ι × R)

def Config.init (s : σ) : Config σ ι V R := ⟨s, fun _ => .waiting, []⟩

variable [DecidableEq ι]

def Config.finish (c : Config σ ι V R) (i : ι) (r : σ × R) : Config σ ι V R where
  shared := r.1
  phase := Function.update c.phase i (.finished r.2)
  done := c.done ++ [(i, r.2)]

def Config.hold (c : Config σ ι V R) (i : ι) (v : V) : Config σ ι V R :=
  { c with phase := Function.update c.phase i (.holding v) }

theorem Config.phase_finish (c : Config σ ι V R) (i j : ι) (r : σ × R) :
    (c.finish i r).phase j = if j = i then .finished r.2 else c.phase j :=
  Function.update_apply _ _ _ _

theorem Config.phase_hold (c : Config σ ι V R) (i j : ι) (v : V) :
    (c.hold i v).phase j = if j = i then .holding v else c.phase j :=
  Function.update_apply _ _ _ _

/-- One atomic step of operation `i`. -/
def step (c : Config σ ι V R) (i : ι) : Option (Config σ ι V R) :=
  match c.phase i with
  | .waiting =>
    match p.snapshot i c.shared with
    | .error r => some (c.finish i (c.shared, r))
    | .ok v => some (c.hold i v)
  | .holding v => some (c.finish i (p.commit i v c.shared))
  | .finished _ => none

/-- If `i` is about to commit, then that does what the whole operation would do in this state. -/
def UpToDate (c : Config σ ι V R) (i : ι) : Prop :=
  ∀ v, c.phase i = .holding v → p.commit i v c.shared = p.exec i c.shared

theorem step_cases {c c' : Config σ ι V R} {i : ι} (hg : p.UpToDate c i)
    (h : p.step c i = some c') :
    (∀ r, c.phase i ≠ .finished r) ∧
      ((∃ v, c' = c.hold i v) ∨ c' = c.finish i (p.exec i c.shared)) := by
  unfold step at h
  cases hp : c.phase i with
  | waiting =>
    refine ⟨fun r he => (by cases he), ?_⟩
    cases hs : p.snapshot i c.shared with
    | error r =>
      have hexec : p.exec i c.shared = (c.shared, r) := by
        simp only [exec, hs]
      simp only [hp, hs] at h
      exact .inr (by rw [hexec]; exact (Option.some.inj h).symm)
    | ok v =>
      simp only [hp, hs] at h
      exact .inl ⟨v, (Option.some.inj h).symm⟩
  | holding v =>
    refine ⟨fun r he => (by cases he), .inr ?_⟩
    simp only [hp] at h
    rw [← hg v hp]
    exact (Option.some.inj h).symm
  | finished r =>
    simp only [hp] at h
    cases h

/-- What has finished so far is a serial run. -/
structure Serial (s₀ : σ) (c : Config σ ι V R) : Prop where
  serial : p.serial s₀ (c.done.map Prod.fst) = (c.shared, c.done)
  nodup : (c.done.map Prod.fst).Nodup
  finished : ∀ i r, c.phase i = .finished r ↔ (i, r) ∈ c.done

omit [DecidableEq ι] in
theorem serial_init (s₀ : σ) : p.Serial s₀ (.init s₀) where
  serial := rfl
  nodup := List.nodup_nil
  finished := fun _ _ => ⟨fun h => (by cases h), fun h => absurd h List.not_mem_nil⟩

theorem serial_hold {s₀ : σ} {c : Config σ ι V R} (h : p.Serial s₀ c) {i : ι}
    (hi : ∀ r, c.phase i ≠ .finished r) (v : V) : p.Serial s₀ (c.hold i v) := by
  refine ⟨h.serial, h.nodup, fun j r => ?_⟩
  show _ ↔ (j, r) ∈ c.done
  rw [← h.finished j r, Config.phase_hold]
  by_cases hj : j = i
  · subst hj
    rw [if_pos rfl]
    exact ⟨fun he => (by cases he), fun he => absurd he (hi r)⟩
  · rw [if_neg hj]

theorem serial_finish {s₀ : σ} {c : Config σ ι V R} (h : p.Serial s₀ c) {i : ι}
    (hi : ∀ r, c.phase i ≠ .finished r) : p.Serial s₀ (c.finish i (p.exec i c.shared)) := by
  have hnew : i ∉ c.done.map Prod.fst := by
    intro hmem
    obtain ⟨⟨j, r⟩, hjr, rfl⟩ := List.mem_map.mp hmem
    exact hi r ((h.finished j r).mpr hjr)
  refine ⟨?_, ?_, fun j r => ?_⟩
  · show p.serial s₀ ((c.done ++ [(i, _)]).map Prod.fst) = _
    rw [List.map_append, serial_append, h.serial]
    rfl
  · show ((c.done ++ [(i, _)]).map Prod.fst).Nodup
    rw [List.map_append]
    refine List.nodup_append.mpr ⟨h.nodup, List.nodup_singleton i, fun j hj k hk he => ?_⟩
    obtain rfl := List.mem_singleton.mp hk
    exact hnew (he ▸ hj)
  · show _ ↔ (j, r) ∈ c.done ++ [(i, _)]
    rw [List.mem_append, List.mem_singleton, ← h.finished j r, Config.phase_finish]
    by_cases hj : j = i
    · subst hj
      rw [if_pos rfl]
      refine ⟨fun he => .inr ?_, fun he => ?_⟩
      · cases he
        rfl
      · rcases he with he | he
        · exact absurd he (hi r)
        · cases he
          rfl
    · rw [if_neg hj]
      refine ⟨.inl, fun he => ?_⟩
      rcases he with he | he
      · exact he
      · cases he
        exact absurd rfl hj

theorem serial_step {s₀ : σ} {c c' : Config σ ι V R} {i : ι} (h : p.Serial s₀ c)
    (hg : p.UpToDate c i) (hs : p.step c i = some c') : p.Serial s₀ c' := by
  obtain ⟨hi, ⟨v, rfl⟩ | rfl⟩ := p.step_cases hg hs
  · exact p.serial_hold h hi v
  · exact p.serial_finish h hi

/-- In a run whose commits are up to date, the state and the results are those of the finished
operations one after another, in the order in which they finished. -/
theorem serial_of_upToDate {s₀ : σ} {c : Config σ ι V R} (schedule : List ι)
    (hr : run p.step (.init s₀) schedule = some c)
    (hg : Along p.step p.UpToDate (.init s₀) schedule) : p.Serial s₀ c := by
  exact run_along (I := p.Serial s₀) (G := p.UpToDate)
    (fun _ _ _ h hg hs => p.serial_step h hg hs) schedule _ c (p.serial_init s₀) hg hr

end Protocol
end Foundations
