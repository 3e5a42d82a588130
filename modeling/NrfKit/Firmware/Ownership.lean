import NrfKit.Firmware.State

/- `src/wireless/radio/ownership.c`: the cooperative owner of the RADIO. The critical
   section makes each call one step; a read of STATE takes the next value of
   `Radio.disabledAt`. -/
namespace NrfKit.Firmware

namespace Radio

/-- Whether the next read of STATE returns DISABLED. -/
def isDisabled (r : Radio) : Bool := r.disabledAt r.reads

/-- The RADIO after one read of STATE. -/
def stateRead (r : Radio) : Radio := { r with reads := r.reads + 1 }

end Radio

/-! `enum nrfkit_radio_result`. -/

def radioOk : Int := 0
def radioErrArgument : Int := -1
def radioErrBusy : Int := -2
def radioErrOwner : Int := -3
def radioErrActive : Int := -4

def validOwner (owner : RadioOwner) : Bool :=
  owner == .proprietary || owner == .ble || owner == .timeslot

def nrfkitRadioAcquire (owner : RadioOwner) (m : Machine) : Int × Machine :=
  if !validOwner owner then (radioErrArgument, m)
  else if m.radioOwner != .ownerNone then (radioErrBusy, m)
  else (radioOk, { m with radioOwner := owner })

def nrfkitRadioRelease (owner : RadioOwner) (m : Machine) : Int × Machine :=
  if !validOwner owner then (radioErrArgument, m)
  else if m.radioOwner != owner then (radioErrOwner, m)
  else
    let disabled := m.radio.isDisabled
    let m := { m with radio := m.radio.stateRead }
    if !disabled then (radioErrActive, m)
    else (radioOk, { m with radioOwner := .ownerNone })

/-- Acquiring succeeds exactly on a free RADIO, and a failure changes nothing. -/
theorem acquire_spec {owner : RadioOwner} (hv : validOwner owner = true) (m : Machine) :
    nrfkitRadioAcquire owner m =
      if m.radioOwner = .ownerNone then (radioOk, { m with radioOwner := owner })
      else (radioErrBusy, m) := by
  unfold nrfkitRadioAcquire
  by_cases h : m.radioOwner = .ownerNone <;> simp [hv, h]

/-- Releasing by the owner succeeds exactly when STATE reads DISABLED. -/
theorem release_spec {owner : RadioOwner} (hv : validOwner owner = true) {m : Machine}
    (ho : m.radioOwner = owner) :
    nrfkitRadioRelease owner m =
      if m.radio.isDisabled then
        (radioOk, { m with radio := m.radio.stateRead, radioOwner := .ownerNone })
      else (radioErrActive, { m with radio := m.radio.stateRead }) := by
  unfold nrfkitRadioRelease
  cases hd : m.radio.isDisabled <;> simp [hv, ho]

/-- Acquiring touches only the owner. -/
theorem acquire_eq (owner : RadioOwner) (m : Machine) :
    ∃ o, (nrfkitRadioAcquire owner m).2 = { m with radioOwner := o } := by
  unfold nrfkitRadioAcquire
  split
  · exact ⟨m.radioOwner, rfl⟩
  · split
    · exact ⟨m.radioOwner, rfl⟩
    · exact ⟨owner, rfl⟩

/-- Releasing touches only the owner and the reads of STATE. -/
theorem release_eq (owner : RadioOwner) (m : Machine) :
    ∃ o r, (nrfkitRadioRelease owner m).2 = { m with radioOwner := o, radio := r } := by
  unfold nrfkitRadioRelease
  split
  · exact ⟨m.radioOwner, m.radio, rfl⟩
  · split
    · exact ⟨m.radioOwner, m.radio, rfl⟩
    · dsimp only
      split
      · exact ⟨m.radioOwner, _, rfl⟩
      · exact ⟨.ownerNone, _, rfl⟩

/-- A client acting under its own name never touches another owner's RADIO. -/
theorem acquire_other {owner o : RadioOwner} (hne : owner ≠ o) (ho : o ≠ .ownerNone) (m : Machine) :
    (nrfkitRadioAcquire owner m).2.radioOwner = o ↔ m.radioOwner = o := by
  cases hv : validOwner owner with
  | false => simp [nrfkitRadioAcquire, hv]
  | true =>
    rw [acquire_spec hv]
    split
    · rename_i hfree
      simp only [hfree]
      exact ⟨fun h => absurd h hne, fun h => absurd h.symm ho⟩
    · rfl

theorem release_other {owner o : RadioOwner} (hne : owner ≠ o) (ho : o ≠ .ownerNone) (m : Machine) :
    (nrfkitRadioRelease owner m).2.radioOwner = o ↔ m.radioOwner = o := by
  cases hv : validOwner owner with
  | false => simp [nrfkitRadioRelease, hv]
  | true =>
    by_cases hown : m.radioOwner = owner
    · rw [release_spec hv hown, hown]
      split
      · exact ⟨fun h => absurd h.symm ho, fun h => absurd h hne⟩
      · simp
    · simp [nrfkitRadioRelease, hv, hown]

end NrfKit.Firmware
