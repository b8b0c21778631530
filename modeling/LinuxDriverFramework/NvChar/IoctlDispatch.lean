import LinuxDriverFramework.NvChar.Ioctl

/-! # The entry that answers an ioctl

`nv_char_ioctl_dispatch` stops at the first entry with the command, whatever that entry says.

* `FirstMatch`: the entry, with its place in the table; `Permitted`: its capability is 0 or held.
* `watched`: the same table with handlers that log their place when they run.
* `Dispatched`: what is promised of a call, log included.
* `dispatch_first_match`: every table keeps the promise, and only the first match counts. -/

namespace LinuxDriverFramework.NvChar.Io
set_option autoImplicit false

variable {σ : Type}

/-! ## The first match -/

/-- Entry `e` has the command, and none of the `i` entries before it. -/
def FirstMatch (cmd : UInt32) (table : List (IoctlEntry σ)) (i : ℕ) (e : IoctlEntry σ) : Prop :=
  ∃ before after, table = before ++ e :: after ∧ before.length = i ∧
    (∀ e' ∈ before, e'.cmd ≠ cmd) ∧ e.cmd = cmd

def IoctlEntry.Permitted (holds : ℤ → Bool) (e : IoctlEntry σ) : Prop :=
  e.capable = 0 ∨ holds e.capable = true

instance (holds : ℤ → Bool) (e : IoctlEntry σ) : Decidable (e.Permitted holds) :=
  inferInstanceAs (Decidable (_ ∨ _))

/-- Every table has a first match, or none of its entries has the command. -/
theorem firstMatch_or_none (cmd : UInt32) (table : List (IoctlEntry σ)) :
    (∀ e ∈ table, e.cmd ≠ cmd) ∨ ∃ i e, FirstMatch cmd table i e := by
  induction table with
  | nil => exact .inl fun e he => by cases he
  | cons e table ih =>
    by_cases hcmd : e.cmd = cmd
    · exact .inr ⟨0, e, [], table, rfl, rfl, fun e' he' => (by cases he'), hcmd⟩
    · obtain hnone | ⟨i, e', before, after, rfl, rfl, hbefore, hmatch⟩ := ih
      · exact .inl (List.forall_mem_cons.mpr ⟨hcmd, hnone⟩)
      · exact .inr ⟨_, e', e :: before, after, rfl, rfl,
          List.forall_mem_cons.mpr ⟨hcmd, hbefore⟩, hmatch⟩

section Loop

variable (holds : ℤ → Bool) {cmd : UInt32} (s : σ) (arg : Mem)

theorem ioctlLoop_skip {before : List (IoctlEntry σ)} (h : ∀ e ∈ before, e.cmd ≠ cmd)
    (table : List (IoctlEntry σ)) :
    ioctlLoop holds cmd s arg (before ++ table) = ioctlLoop holds cmd s arg table := by
  induction before with
  | nil => rfl
  | cons e before ih =>
    obtain ⟨hcmd, hbefore⟩ := List.forall_mem_cons.mp h
    rw [List.cons_append, ioctlLoop, if_pos hcmd]
    exact ih hbefore

theorem ioctlLoop_match {e : IoctlEntry σ} (h : e.cmd = cmd) (after : List (IoctlEntry σ)) :
    ioctlLoop holds cmd s arg (e :: after) =
      if e.Permitted holds then
        match e.handler with
        | some handler => handler s arg
        | none => ⟨.error .ENOTTY, s, arg⟩
      else ⟨.error .EPERM, s, arg⟩ := by
  have hrefused : (e.capable ≠ 0 ∧ holds e.capable = false) ↔ ¬ e.Permitted holds := by
    rw [IoctlEntry.Permitted, not_or, Bool.not_eq_true]
  rw [ioctlLoop, if_neg (not_not.mpr h)]
  by_cases hp : e.Permitted holds
  · have hallowed : ¬ (e.capable ≠ 0 ∧ holds e.capable = false) := fun hn => hrefused.mp hn hp
    exact (if_neg hallowed).trans (if_pos hp).symm
  · rw [if_pos (hrefused.mpr hp), if_neg hp]

theorem ioctlLoop_none {table : List (IoctlEntry σ)} (h : ∀ e ∈ table, e.cmd ≠ cmd) :
    ioctlLoop holds cmd s arg table = ⟨.error .ENOTTY, s, arg⟩ := by
  have hskip := ioctlLoop_skip holds s arg h []
  rwa [List.append_nil] at hskip

end Loop

/-! ## Which handlers run -/

/-- The handler at place `i`, which enters its place into the log. -/
def watch (i : ℕ) (handler : IoctlHandler σ) : IoctlHandler (σ × List ℕ) := fun s arg =>
  let r := handler s.1 arg
  ⟨r.ret, (r.state, s.2 ++ [i]), r.arg⟩

def IoctlEntry.watched (i : ℕ) (e : IoctlEntry σ) : IoctlEntry (σ × List ℕ) :=
  ⟨e.cmd, e.handler.map (watch i), e.capable⟩

/-- The table with its places numbered from `i` on. -/
def watched (i : ℕ) : List (IoctlEntry σ) → List (IoctlEntry (σ × List ℕ))
  | [] => []
  | e :: table => e.watched i :: watched (i + 1) table

theorem watched_append (i : ℕ) (before table : List (IoctlEntry σ)) :
    watched i (before ++ table) = watched i before ++ watched (i + before.length) table := by
  induction before generalizing i with
  | nil => rfl
  | cons e before ih =>
    rw [List.cons_append, watched, watched, ih, List.length_cons, List.cons_append,
      Nat.add_assoc, Nat.add_comm 1]

theorem watched_skips {cmd : UInt32} (i : ℕ) {before : List (IoctlEntry σ)}
    (h : ∀ e ∈ before, e.cmd ≠ cmd) : ∀ e ∈ watched i before, e.cmd ≠ cmd := by
  induction before generalizing i with
  | nil => exact fun e he => by cases he
  | cons e before ih =>
    obtain ⟨hcmd, hbefore⟩ := List.forall_mem_cons.mp h
    exact List.forall_mem_cons.mpr ⟨hcmd, ih (i + 1) hbefore⟩

section Watched

variable (holds : ℤ → Bool) {cmd : UInt32} (s : σ) (arg : Mem) {table : List (IoctlEntry σ)}

/-- The dispatcher on the watched table, before any handler has run. -/
def dispatchWatched (holds : ℤ → Bool) (cmd : UInt32) (s : σ) (arg : Mem)
    (table : List (IoctlEntry σ)) : IoctlResult (σ × List ℕ) :=
  ioctlDispatch holds cmd (s, []) arg (some (watched 0 table))

theorem dispatchWatched_none (h : ∀ e ∈ table, e.cmd ≠ cmd) :
    dispatchWatched holds cmd s arg table = ⟨.error .ENOTTY, (s, []), arg⟩ :=
  ioctlLoop_none holds (s, []) arg (watched_skips 0 h)

theorem dispatchWatched_first {i : ℕ} {e : IoctlEntry σ} (h : FirstMatch cmd table i e) :
    dispatchWatched holds cmd s arg table =
      if e.Permitted holds then
        match e.handler with
        | some handler => watch i handler (s, []) arg
        | none => ⟨.error .ENOTTY, (s, []), arg⟩
      else ⟨.error .EPERM, (s, []), arg⟩ := by
  obtain ⟨before, after, rfl, rfl, hbefore, hcmd⟩ := h
  have hmatch : (e.watched before.length).cmd = cmd := hcmd
  show ioctlLoop holds cmd (s, []) arg (watched 0 (before ++ e :: after)) = _
  rw [watched_append, ioctlLoop_skip holds _ arg (watched_skips 0 hbefore), Nat.zero_add, watched,
    ioctlLoop_match holds _ arg hmatch]
  -- the watched entry keeps its capability
  by_cases hp : e.Permitted holds
  · have hp' : (e.watched before.length).Permitted holds := hp
    rw [if_pos hp', if_pos hp]
    cases hh : e.handler with
    | none => simp only [IoctlEntry.watched, hh, Option.map]
    | some handler => simp only [IoctlEntry.watched, hh, Option.map]
  · have hp' : ¬ (e.watched before.length).Permitted holds := hp
    rw [if_neg hp', if_neg hp]

theorem dispatch_of_firstMatch {i : ℕ} {e : IoctlEntry σ} (h : FirstMatch cmd table i e) :
    ioctlDispatch holds cmd s arg (some table) =
      if e.Permitted holds then
        match e.handler with
        | some handler => handler s arg
        | none => ⟨.error .ENOTTY, s, arg⟩
      else ⟨.error .EPERM, s, arg⟩ := by
  obtain ⟨before, after, rfl, -, hbefore, hcmd⟩ := h
  exact (ioctlLoop_skip holds s arg hbefore _).trans (ioctlLoop_match holds s arg hcmd after)

/-- Watching the handlers changes nothing that they do. -/
theorem dispatch_watched (holds : ℤ → Bool) (cmd : UInt32) (s : σ) (arg : Mem)
    (table : List (IoctlEntry σ)) :
    ioctlDispatch holds cmd s arg (some table) =
      let r := dispatchWatched holds cmd s arg table
      ⟨r.ret, r.state.1, r.arg⟩ := by
  obtain hnone | ⟨i, e, hfirst⟩ := firstMatch_or_none cmd table
  · rw [dispatchWatched_none holds s arg hnone]
    exact ioctlLoop_none holds s arg hnone
  · rw [dispatch_of_firstMatch holds s arg hfirst, dispatchWatched_first holds s arg hfirst]
    split
    · cases e.handler <;> rfl
    · rfl

end Watched

/-! ## The promise -/

/-- The state is `r.state.1` and the places of the handlers that ran are `r.state.2`. -/
structure Dispatched (holds : ℤ → Bool) (cmd : UInt32) (s : σ) (arg : Mem)
    (table : List (IoctlEntry σ)) (r : IoctlResult (σ × List ℕ)) : Prop where
  /-- at most one handler runs, that of the first match, which is permitted -/
  ran : r.state.2 = [] ∨ ∃ i e, r.state.2 = [i] ∧ FirstMatch cmd table i e ∧ e.Permitted holds ∧
    e.handler.isSome = true
  called : ∀ i e handler, FirstMatch cmd table i e → e.Permitted holds →
    e.handler = some handler → r = watch i handler (s, []) arg
  denied : ∀ i e, FirstMatch cmd table i e → ¬ e.Permitted holds →
    r = ⟨.error .EPERM, (s, []), arg⟩
  /-- the capability is looked at before the handler -/
  absent : ∀ i e, FirstMatch cmd table i e → e.handler = none →
    r = ⟨.error (if e.Permitted holds then .ENOTTY else .EPERM), (s, []), arg⟩
  unknown : (∀ e ∈ table, e.cmd ≠ cmd) → r = ⟨.error .ENOTTY, (s, []), arg⟩

/-- The first match answers as if it were the only entry. -/
def OnlyFirst (holds : ℤ → Bool) (cmd : UInt32) (s : σ) (arg : Mem)
    (table : List (IoctlEntry σ)) : Prop :=
  ∀ i e, FirstMatch cmd table i e →
    ioctlDispatch holds cmd s arg (some table) = ioctlDispatch holds cmd s arg (some [e])

theorem dispatched (holds : ℤ → Bool) (cmd : UInt32) (s : σ) (arg : Mem)
    (table : List (IoctlEntry σ)) :
    Dispatched holds cmd s arg table (dispatchWatched holds cmd s arg table) where
  ran := by
    obtain hnone | ⟨i, e, hfirst⟩ := firstMatch_or_none cmd table
    · rw [dispatchWatched_none holds s arg hnone]
      exact .inl rfl
    · rw [dispatchWatched_first holds s arg hfirst]
      by_cases hp : e.Permitted holds
      · rw [if_pos hp]
        cases hh : e.handler with
        | none => exact .inl rfl
        | some handler => exact .inr ⟨i, e, rfl, hfirst, hp, by rw [hh]; rfl⟩
      · rw [if_neg hp]
        exact .inl rfl
  called i e handler hfirst hp hh := by
    rw [dispatchWatched_first holds s arg hfirst, if_pos hp, hh]
  denied i e hfirst hp := by
    rw [dispatchWatched_first holds s arg hfirst, if_neg hp]
  absent i e hfirst hh := by
    rw [dispatchWatched_first holds s arg hfirst, hh]
    split <;> rfl
  unknown hnone := dispatchWatched_none holds s arg hnone

theorem onlyFirst (holds : ℤ → Bool) (cmd : UInt32) (s : σ) (arg : Mem)
    (table : List (IoctlEntry σ)) : OnlyFirst holds cmd s arg table := by
  intro i e hfirst
  have hsingle : FirstMatch cmd [e] 0 e := by
    obtain ⟨-, -, -, -, -, hcmd⟩ := hfirst
    exact ⟨[], [], rfl, rfl, fun e' he' => (by cases he'), hcmd⟩
  rw [dispatch_of_firstMatch holds s arg hfirst, dispatch_of_firstMatch holds s arg hsingle]

/-- The dispatcher runs the handler of the first match or none, whatever the rest of the table
is. -/
theorem dispatch_first_match (holds : ℤ → Bool) (cmd : UInt32) (s : σ) (arg : Mem)
    (table : List (IoctlEntry σ)) :
    (ioctlDispatch holds cmd s arg (some table) =
      let r := dispatchWatched holds cmd s arg table
      ⟨r.ret, r.state.1, r.arg⟩) ∧
    Dispatched holds cmd s arg table (dispatchWatched holds cmd s arg table) ∧
    OnlyFirst holds cmd s arg table ∧
    ioctlDispatch holds cmd s arg none = ⟨.error .ENOTTY, s, arg⟩ :=
  ⟨dispatch_watched holds cmd s arg table, dispatched holds cmd s arg table,
    onlyFirst holds cmd s arg table, rfl⟩

end LinuxDriverFramework.NvChar.Io
