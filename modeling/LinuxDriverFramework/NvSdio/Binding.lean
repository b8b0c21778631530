import LinuxDriverFramework.Foundations.Binding
import LinuxDriverFramework.NvSdio.Demo

/-! # The driver-data pointer of `nv_sdio`

`nv_sdio_probe` and `nv_sdio_remove` run to their end on one function, with any callbacks and any
answers of the kernel and the card. -/

namespace LinuxDriverFramework.NvSdio
open Foundations
set_option autoImplicit false

/-- What the kernel and the card answer to the call of each number. -/
abbrev Surroundings := ℕ → (c : Call) → c.Answer

/-- The state is the driver data and the number of calls so far. -/
def perform (env : Surroundings) (s : Data × ℕ) : (c : Call) → (Data × ℕ) × c.Answer
  | .load => ((s.1, s.2 + 1), s.1)
  | .update f => ((f s.1, s.2 + 1), ())
  | .claimHost => ((s.1, s.2 + 1), ())
  | .releaseHost => ((s.1, s.2 + 1), ())
  | .bus op => ((s.1, s.2 + 1), env s.2 (.bus op))
  | .kzalloc => ((s.1, s.2 + 1), env s.2 .kzalloc)
  | .addGroup => ((s.1, s.2 + 1), env s.2 .addGroup)

structure Attempt where
  ops : Option Ops
  curBlksize : ℕ
  env : Surroundings

structure Removal where
  ops : Option Ops
  env : Surroundings

def binding : Binding Data Attempt Removal Errno where
  probe d a :=
    let r := (probe a.ops a.curBlksize).exec (perform a.env) (d, 0)
    (r.1.1, r.2)
  remove d a := ((remove a.ops).exec (perform a.env) (d, 0)).1.1
  held := Data.drvdata

theorem probe_refused (d : Data) (a : Attempt) (hd : d.drvdata = false)
    (h : (binding.probe d a).2.isOk = false) : (binding.probe d a).1.drvdata = false := by
  simp only [binding, probe] at h ⊢
  cases hops : a.ops.bind Ops.probe with
  | none => exact hd
  | some op =>
    obtain ⟨alloc, halloc⟩ : ∃ alloc : Bool,
        (call .kzalloc).exec (perform a.env) (d, 0) = ((d, 1), alloc) := ⟨_, rfl⟩
    simp only [hops, Program.exec_bind] at h ⊢
    rw [halloc] at h ⊢
    cases alloc with
    | false => exact hd
    | true =>
      simp only [call, Bool.not_true, Bool.false_eq_true, if_false, Program.exec_bind,
        Program.exec_request, perform] at h ⊢
      split at h
      · rfl
      · cases h

theorem held_remove (d : Data) (a : Removal) : binding.held (binding.remove d a) = false := by
  simp only [binding, remove, devFromFunc, call, Program.exec_bind, Program.exec_request, perform]
  cases hd : d.drvdata with
  | false => exact hd
  | true =>
    simp only [Program.exec_pure, Bool.not_true, Bool.false_eq_true, if_false]
    cases a.ops.bind Ops.remove with
    | none => rfl
    | some op =>
      simp only [Program.exec_bind, Program.exec_request, perform]

theorem leaks_never : binding.LeaksExactly fun _ _ => false where
  refused := probe_refused
  accepted _ _ _ _ := rfl
  removed := held_remove

end LinuxDriverFramework.NvSdio
