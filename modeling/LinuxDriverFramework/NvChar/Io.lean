import LinuxDriverFramework.Kernel.UserCopy
import LinuxDriverFramework.NvChar.FileOps

/-! # Reading and writing data through the wrappers

`FileOps` says which callback a wrapper picks; here the callbacks carry data. `DevOps σ` are the
data callbacks of a device with private state `σ`, and `read`, `write`, `readIter` and `writeIter`
are the four wrappers of `nv_char.c` with their bounce buffer.

The lemmas at the end tie the two levels together: where the choice of `FileOps` is an error, the
wrapper returns that error and changes nothing. -/

namespace LinuxDriverFramework.NvChar.Io
open Foundations
set_option autoImplicit false

variable {σ : Type}

/-- Return value, private state, the caller's buffer and the file position after a call. -/
structure IoResult (σ : Type) where
  ret : Except Errno ℕ
  state : σ
  mem : Mem
  pos : ℤ

structure IterResult (σ : Type) where
  ret : Except Errno ℕ
  state : σ
  iter : Iter
  pos : ℤ

/-- `ops->read` or `ops->write`: the buffer, `count` and `*ppos` come after the state. -/
abbrev RwCallback (σ : Type) := σ → Mem → ℕ → ℤ → IoResult σ

abbrev IterCallback (σ : Type) := σ → Iter → ℤ → IterResult σ

structure DevOps (σ : Type) where
  read : Option (RwCallback σ)
  write : Option (RwCallback σ)
  readIter : Option (IterCallback σ)
  writeIter : Option (IterCallback σ)

/-! ## The flat wrappers -/

/-- The body that `nv_char_read` and `nv_char_write` share. -/
def flat (cb : Option (RwCallback σ)) (removing : Bool) (s : σ) (buf : Mem) (count : ℕ) (pos : ℤ) :
    IoResult σ :=
  if removing then ⟨.error .ENODEV, s, buf, pos⟩
  else
    match cb with
    | some cb => cb s buf count pos
    | none => ⟨.error .ENOSYS, s, buf, pos⟩

def read (removing : Bool) (ops : Option (DevOps σ)) (s : σ) (buf : Mem) (count : ℕ) (pos : ℤ) :
    IoResult σ :=
  flat (ops.bind (·.read)) removing s buf count pos

def write (removing : Bool) (ops : Option (DevOps σ)) (s : σ) (buf : Mem) (count : ℕ) (pos : ℤ) :
    IoResult σ :=
  flat (ops.bind (·.write)) removing s buf count pos

/-! ## The iterator wrappers -/

/-- `nv_char_read_iter` with the bounce buffer at hand: read into it, then copy out. -/
def readBounced (cb : RwCallback σ) (junk : ℕ → UInt8) (s : σ) (it : Iter) (pos : ℤ) :
    IterResult σ :=
  let r := cb s (.bounce junk it.count) it.count pos
  match r.ret with
  | .error e => ⟨.error e, r.state, it, r.pos⟩
  | .ok n =>
    if 0 < n then
      let (it', copied) := copyToIter (r.mem.bytes.take n) it
      ⟨if copied ≠ n then .error .EFAULT else .ok n, r.state, it', r.pos⟩
    else ⟨.ok n, r.state, it, r.pos⟩

/-- `nv_char_write_iter` with the bounce buffer at hand. A partial copy is passed on with the full
count. -/
def writeBounced (cb : RwCallback σ) (junk : ℕ → UInt8) (s : σ) (it : Iter) (pos : ℤ) :
    IterResult σ :=
  let moved := copyFromIter it.count it
  if moved.length = 0 then ⟨.error .EFAULT, s, it, pos⟩
  else
    let kbuf := Mem.bounce junk it.count
    let r := cb s { kbuf with bytes := overlay moved kbuf.bytes } it.count pos
    ⟨r.ret, r.state, it, r.pos⟩

/-- The body that `nv_char_read_iter` and `nv_char_write_iter` share up to their use of the bounce
buffer; `kbuf` is its content if it can be allocated. -/
def scattered (iterCb : Option (IterCallback σ)) (cb : Option (RwCallback σ))
    (bounced : RwCallback σ → (ℕ → UInt8) → σ → Iter → ℤ → IterResult σ) (removing : Bool)
    (kbuf : Option (ℕ → UInt8)) (s : σ) (it : Iter) (pos : ℤ) : IterResult σ :=
  if removing then ⟨.error .ENODEV, s, it, pos⟩
  else
    match iterCb with
    | some cb => cb s it pos
    | none =>
      match cb with
      | none => ⟨.error .ENOSYS, s, it, pos⟩
      | some cb =>
        if it.count = 0 then ⟨.ok 0, s, it, pos⟩
        else
          match kbuf with
          | none => ⟨.error .ENOMEM, s, it, pos⟩
          | some junk => bounced cb junk s it pos

def readIter (removing : Bool) (ops : Option (DevOps σ)) (kbuf : Option (ℕ → UInt8)) (s : σ)
    (it : Iter) (pos : ℤ) : IterResult σ :=
  scattered (ops.bind (·.readIter)) (ops.bind (·.read)) readBounced removing kbuf s it pos

def writeIter (removing : Bool) (ops : Option (DevOps σ)) (kbuf : Option (ℕ → UInt8)) (s : σ)
    (it : Iter) (pos : ℤ) : IterResult σ :=
  scattered (ops.bind (·.writeIter)) (ops.bind (·.write)) writeBounced removing kbuf s it pos

/-! ## The choice of `FileOps` -/

/-- Which members a device's data callbacks fill in. -/
def DevOps.members (d : DevOps σ) : Ops
  | .read => d.read.isSome
  | .write => d.write.isSome
  | .readIter => d.readIter.isSome
  | .writeIter => d.writeIter.isSome
  | _ => false

theorem provides_members (ops : Option (DevOps σ)) :
    provides (ops.map DevOps.members) .read = (ops.bind (·.read)).isSome ∧
    provides (ops.map DevOps.members) .write = (ops.bind (·.write)).isSome ∧
    provides (ops.map DevOps.members) .readIter = (ops.bind (·.readIter)).isSome ∧
    provides (ops.map DevOps.members) .writeIter = (ops.bind (·.writeIter)).isSome := by
  cases ops <;> exact ⟨rfl, rfl, rfl, rfl⟩

theorem flat_fail {cb : Option (RwCallback σ)} {ops : Option Ops} {c : Callback} {removing : Bool}
    {e : Errno} (hp : provides ops c = cb.isSome)
    (h : gated removing (.fail .ENODEV) (callOr ops c (.fail .ENOSYS)) = .fail e) (s : σ)
    (buf : Mem) (count : ℕ) (pos : ℤ) :
    flat cb removing s buf count pos = ⟨.error e, s, buf, pos⟩ := by
  cases removing with
  | true => cases h; rfl
  | false =>
    cases cb with
    | some cb => simp [gated, callOr, hp] at h
    | none =>
      obtain rfl : Errno.ENOSYS = e := by simpa [gated, callOr, hp] using h
      rfl

/-- `last` is the choice once the bounce buffer is there. -/
theorem scattered_fail {iterCb : Option (IterCallback σ)} {cb : Option (RwCallback σ)}
    {bounced : RwCallback σ → (ℕ → UInt8) → σ → Iter → ℤ → IterResult σ} {ops : Option Ops}
    {c c' : Callback} {removing : Bool} {kbuf : Option (ℕ → UInt8)} {last : Outcome} {e : Errno}
    {s : σ} {it : Iter} {pos : ℤ} (hp : provides ops c = iterCb.isSome)
    (hp' : provides ops c' = cb.isSome)
    (hlast : last = .fail e → ∀ cb junk, bounced cb junk s it pos = ⟨.error e, s, it, pos⟩)
    (h : gated removing (.fail .ENODEV) (callOr ops c <|
      if !provides ops c' then .fail .ENOSYS
      else if it.count = 0 then .done
      else if !kbuf.isSome then .fail .ENOMEM
      else last) = .fail e) :
    scattered iterCb cb bounced removing kbuf s it pos = ⟨.error e, s, it, pos⟩ := by
  cases removing with
  | true => cases h; rfl
  | false =>
    simp only [gated, callOr, hp, hp', Bool.false_eq_true, if_false] at h
    cases iterCb with
    | some cb => cases h
    | none =>
      cases cb with
      | none =>
        obtain rfl : Errno.ENOSYS = e := by simpa using h
        rfl
      | some cb =>
        by_cases hz : it.count = 0
        · simp [hz] at h
        · cases kbuf with
          | none =>
            obtain rfl : Errno.ENOMEM = e := by simpa [hz] using h
            simp [scattered, hz]
          | some junk =>
            have hl : last = .fail e := by simpa [hz] using h
            simpa [scattered, hz] using hlast hl cb junk

/-- A wrapper that picks an error returns it and changes nothing. -/
theorem read_fail {removing : Bool} {ops : Option (DevOps σ)} {e : Errno}
    (h : NvChar.read removing (ops.map DevOps.members) = .fail e) (s : σ) (buf : Mem) (count : ℕ)
    (pos : ℤ) : read removing ops s buf count pos = ⟨.error e, s, buf, pos⟩ :=
  flat_fail (provides_members ops).1 h s buf count pos

theorem write_fail {removing : Bool} {ops : Option (DevOps σ)} {e : Errno}
    (h : NvChar.write removing (ops.map DevOps.members) = .fail e) (s : σ) (buf : Mem) (count : ℕ)
    (pos : ℤ) : write removing ops s buf count pos = ⟨.error e, s, buf, pos⟩ :=
  flat_fail (provides_members ops).2.1 h s buf count pos

theorem readIter_fail {removing : Bool} {ops : Option (DevOps σ)} {kbuf : Option (ℕ → UInt8)}
    {it : Iter} {e : Errno}
    (h : NvChar.readIter it.count kbuf.isSome removing (ops.map DevOps.members) = .fail e) (s : σ)
    (pos : ℤ) : readIter removing ops kbuf s it pos = ⟨.error e, s, it, pos⟩ := by
  obtain ⟨hread, -, hiter, -⟩ := provides_members ops
  exact scattered_fail hiter hread (fun hl => by cases hl) h

theorem writeIter_fail {removing : Bool} {ops : Option (DevOps σ)} {kbuf : Option (ℕ → UInt8)}
    {it : Iter} {e : Errno}
    (h : NvChar.writeIter it.count kbuf.isSome (copyFromIter it.count it).length removing
      (ops.map DevOps.members) = .fail e) (s : σ)
    (pos : ℤ) : writeIter removing ops kbuf s it pos = ⟨.error e, s, it, pos⟩ := by
  obtain ⟨-, hwrite, -, hiter⟩ := provides_members ops
  refine scattered_fail hiter hwrite (fun hl cb junk => ?_) h
  by_cases hz : (copyFromIter it.count it).length = 0
  · rw [if_pos hz] at hl
    cases hl
    simp [writeBounced, hz]
  · rw [if_neg hz] at hl
    cases hl

end LinuxDriverFramework.NvChar.Io
