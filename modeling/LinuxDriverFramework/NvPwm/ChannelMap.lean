import LinuxDriverFramework.NvPwm.Chip

/-! # A demo chip is a map from channel to state

* `ChannelMap`: what a chip with four channels is for, and `ChannelMap.Step`: what each call may do
  with such a map, and when it may fail.
* `step`: the same call on the registered chip.
* `run_refines`: a run of calls on the chip is a run of the map. -/

namespace LinuxDriverFramework.NvPwm
set_option autoImplicit false

inductive Call
  | config (index period duty : ℕ) (enabled : Bool)
  | enable (index : ℕ) (on : Bool)
  | getConfig (index : ℕ)
  deriving DecidableEq, Repr

/-- What a call returns; a `getConfig` that succeeds also returns a state. -/
inductive Result
  | ret (r : Ret)
  | state (r : Except Errno PwmState)

/-! ## The abstract map -/

abbrev ChannelMap := Fin demoNpwm → PwmState

inductive ChannelMap.Step (m : ChannelMap) : Call → Result → ChannelMap → Prop
  | config (i : Fin demoNpwm) (period duty : ℕ) (enabled : Bool) :
      Step m (.config i period duty enabled) (.ret (.ok ()))
        (Function.update m i ⟨period, duty, .normal, enabled⟩)
  | configFails (i period duty : ℕ) (enabled : Bool) (e : Errno)
      (h : i < demoNpwm → (configured period duty enabled).Refusable) :
      Step m (.config i period duty enabled) (.ret (.error e)) m
  | enable (i : Fin demoNpwm) (on : Bool) :
      Step m (.enable i on) (.ret (.ok ())) (Function.update m i { m i with enabled := on })
  | enableFails (i : ℕ) (on : Bool) (e : Errno)
      (h : ∀ hi : i < demoNpwm, { m ⟨i, hi⟩ with enabled := on }.Refusable) :
      Step m (.enable i on) (.ret (.error e)) m
  | getConfig (i : Fin demoNpwm) : Step m (.getConfig i) (.state (.ok (m i))) m
  | getConfigFails (i : ℕ) (h : ¬ i < demoNpwm) (e : Errno) :
      Step m (.getConfig i) (.state (.error e)) m

/-- The calls in order, each with its result, take the first map to the last. -/
inductive ChannelMap.Run : ChannelMap → List Call → List Result → ChannelMap → Prop
  | nil (m : ChannelMap) : Run m [] [] m
  | cons {m m₁ m₂ : ChannelMap} {c : Call} {r : Result} {cs : List Call} {rs : List Result}
      (head : Step m c r m₁) (tail : Run m₁ cs rs m₂) : Run m (c :: cs) (r :: rs) m₂

theorem ChannelMap.Step.failed {m m' : ChannelMap} {c : Call} {e : Errno}
    (h : Step m c (.ret (.error e)) m' ∨ Step m c (.state (.error e)) m') : m' = m := by
  rcases h with h | h <;> cases h <;> rfl

def Call.index : Call → ℕ
  | .config i .. => i
  | .enable i _ => i
  | .getConfig i => i

/-- No call changes another channel. -/
theorem ChannelMap.Step.other {m m' : ChannelMap} {c : Call} {r : Result} (h : Step m c r m')
    {j : Fin demoNpwm} (hj : (j : ℕ) ≠ c.index) : m' j = m j := by
  cases h with
  | config i => exact Function.update_of_ne (fun he => hj (by rw [he]; rfl)) _ _
  | enable i => exact Function.update_of_ne (fun he => hj (by rw [he]; rfl)) _ _
  | configFails => rfl
  | enableFails => rfl
  | getConfig => rfl
  | getConfigFails => rfl

/-! ## The chip -/

def step (core : PwmCore) (nchip : NvPwmChip DemoPriv) (s : DemoPriv) : Call → DemoPriv × Result
  | .config index period duty enabled =>
    let r := config core (some nchip) s index period duty enabled
    (r.1, .ret r.2)
  | .enable index on =>
    let r := enable core (some nchip) s index on
    (r.1, .ret r.2)
  | .getConfig index => (s, .state (getConfig core (some nchip) s index true))

def run (core : PwmCore) (nchip : NvPwmChip DemoPriv) : DemoPriv → List Call → DemoPriv × List Result
  | s, [] => (s, [])
  | s, c :: cs =>
    let r := step core nchip s c
    let rest := run core nchip r.1 cs
    (rest.1, r.2 :: rest.2)

/-- The map that the chip's private data stands for. -/
def DemoPriv.map (s : DemoPriv) : ChannelMap := fun i => s.ch i

theorem map_update (s : DemoPriv) (i : Fin demoNpwm) (state : PwmState) :
    DemoPriv.map { s with ch := Function.update s.ch i state } = Function.update s.map i state := by
  funext j
  by_cases h : j = i
  · subst h
    simp only [DemoPriv.map, Function.update_self]
  · have hne : (j : ℕ) ≠ i := fun he => h (Fin.ext he)
    simp only [DemoPriv.map, Function.update_of_ne hne, Function.update_of_ne h]

/-! ## The chip refines the map -/

section Refines

variable (core : PwmCore) {nchip : NvPwmChip DemoPriv} (h : Registered nchip) (s : DemoPriv)
include h

theorem config_refines (index period duty : ℕ) (enabled : Bool) :
    s.map.Step (.config index period duty enabled)
      (step core nchip s (.config index period duty enabled)).2
      (step core nchip s (.config index period duty enabled)).1.map := by
  show s.map.Step _ (.ret (config core (some nchip) s index period duty enabled).2)
    (config core (some nchip) s index period duty enabled).1.map
  by_cases hi : index < demoNpwm
  · rw [config_channel h hi]
    by_cases hbad : (decide (period < duty) && period != 0) = true
    · rw [if_pos hbad]
      exact .configFails index period duty enabled .EINVAL fun _ => .inl (refused_iff.mp hbad)
    · rw [if_neg hbad]
      obtain ⟨href, e, he⟩ | hok :=
        applyMightSleep_cases core h hi s (configured period duty enabled)
      · rw [he]
        exact .configFails index period duty enabled e fun _ => href
      · have hmap := map_update s ⟨index, hi⟩ (configured period duty enabled)
        rw [hok, hmap]
        exact .config ⟨index, hi⟩ period duty enabled
  · rw [config_invalid h hi]
    exact .configFails index period duty enabled .EINVAL fun hi' => absurd hi' hi

theorem enable_refines (index : ℕ) (on : Bool) :
    s.map.Step (.enable index on) (step core nchip s (.enable index on)).2
      (step core nchip s (.enable index on)).1.map := by
  show s.map.Step _ (.ret (enable core (some nchip) s index on).2)
    (enable core (some nchip) s index on).1.map
  by_cases hi : index < demoNpwm
  · rw [enable_channel h hi]
    obtain ⟨href, e, he⟩ | hok :=
      applyMightSleep_cases core h hi s { s.ch index with enabled := on }
    · rw [he]
      exact .enableFails index on e fun _ => href
    · have hmap := map_update s ⟨index, hi⟩ { s.ch index with enabled := on }
      rw [hok, hmap]
      exact .enable ⟨index, hi⟩ on
  · rw [enable_invalid h hi]
    exact .enableFails index on .EINVAL fun hi' => absurd hi' hi

theorem getConfig_refines (index : ℕ) :
    s.map.Step (.getConfig index) (step core nchip s (.getConfig index)).2
      (step core nchip s (.getConfig index)).1.map := by
  show s.map.Step _ (.state (getConfig core (some nchip) s index true)) s.map
  by_cases hi : index < demoNpwm
  · rw [getConfig_channel h hi]
    exact .getConfig ⟨index, hi⟩
  · rw [getConfig_invalid h hi]
    exact .getConfigFails index hi .EINVAL

theorem step_refines (c : Call) :
    s.map.Step c (step core nchip s c).2 (step core nchip s c).1.map := by
  cases c with
  | config index period duty enabled => exact config_refines core h s index period duty enabled
  | enable index on => exact enable_refines core h s index on
  | getConfig index => exact getConfig_refines core h s index

end Refines

/-- Every run of calls on a registered demo chip is a run of the map it stands for. -/
theorem run_refines (core : PwmCore) (nchip : NvPwmChip DemoPriv) (h : Registered nchip)
    (s : DemoPriv) (calls : List Call) :
    s.map.Run calls (run core nchip s calls).2 (run core nchip s calls).1.map := by
  induction calls generalizing s with
  | nil => exact .nil s.map
  | cons c cs ih => exact .cons (step_refines core h s c) (ih (step core nchip s c).1)

/-! ## A run -/

def strictCore : PwmCore where
  initState := fun _ => ⟨0, 0, .normal, false⟩
  getState := fun _ => ⟨0, 0, .normal, false⟩
  reject := fun s =>
    if s.enabled = true ∧ (s.period = 0 ∨ s.period < s.duty) then some .EINVAL else none
  rejects_only := fun s e he => by
    by_contra hno
    rw [if_neg hno] at he
    cases he

/-- `demo_data` as the module is loaded with it. -/
def demoZero : DemoPriv := ⟨fun _ => ⟨0, 0, .normal, false⟩⟩

theorem run_refines_demo :
    demoZero.map.Run [.config 0 1000000 250000 false, .enable 0 true, .getConfig 0]
      (run strictCore demoChip demoZero
        [.config 0 1000000 250000 false, .enable 0 true, .getConfig 0]).2
      (run strictCore demoChip demoZero
        [.config 0 1000000 250000 false, .enable 0 true, .getConfig 0]).1.map :=
  run_refines strictCore demoChip registered_demoChip demoZero _

/-- The sequence of the user-space test reads back what it has set. -/
example : (getConfig strictCore (some demoChip)
    (run strictCore demoChip demoZero [.config 0 1000000 250000 false, .enable 0 true]).1 0 true) =
    .ok ⟨1000000, 250000, .normal, true⟩ := by
  decide

end LinuxDriverFramework.NvPwm
