import Mathlib.Algebra.Order.Ring.Nat

/- The memory functions of the freestanding C library: `src/runtime/common/freestanding.c`.

   Pointers and `size_t` have 32 bits and wrap. `count-- != 0U` is a recursion on what is left
   of the count. A range may end at the top of the address space, and its end is then zero. -/
namespace NrfKit.Runtime

abbrev Memory := UInt32 → UInt8

/-- `*address = value`. -/
def Memory.store (m : Memory) (address : UInt32) (value : UInt8) : Memory :=
  fun a => if a = address then value else m a

@[simp] theorem store_same (m : Memory) (address : UInt32) (value : UInt8) :
    m.store address value address = value :=
  if_pos rfl

theorem store_other {m : Memory} {address a : UInt32} {value : UInt8}
    (h : a ≠ address) : m.store address value a = m a :=
  if_neg h

/-- `*to++ = *from++`, as often as `count` says. -/
def copyUp (m : Memory) (destination source : UInt32) : Nat → Memory
  | 0 => m
  | count + 1 => copyUp (m.store destination (m source)) (destination + 1) (source + 1) count

/-- `*--to = *--from`, as often as `count` says. -/
def copyDown (m : Memory) (destination source : UInt32) : Nat → Memory
  | 0 => m
  | count + 1 =>
    copyDown (m.store (destination - 1) (m (source - 1))) (destination - 1) (source - 1) count

def memcpy (m : Memory) (destination source count : UInt32) : Memory × UInt32 :=
  (copyUp m destination source count.toNat, destination)

def memmove (m : Memory) (destination source count : UInt32) : Memory × UInt32 :=
  if destination < source then (copyUp m destination source count.toNat, destination)
  else if destination > source then
    (copyDown m (destination + count) (source + count) count.toNat, destination)
  else (m, destination)

/-- `*to++ = value`, as often as `count` says. -/
def fill (m : Memory) (destination : UInt32) (value : UInt8) : Nat → Memory
  | 0 => m
  | count + 1 => fill (m.store destination value) (destination + 1) value count

/-- The value is converted to `unsigned char`. -/
def memset (m : Memory) (destination : UInt32) (value : Int) (count : UInt32) : Memory × UInt32 :=
  (fill m destination (UInt8.ofInt value) count.toNat, destination)

/-! ## Addresses -/

/-- The address of byte `i` of an object. -/
def byteAt (base : UInt32) (i : Nat) : UInt32 := base + UInt32.ofNat i

/-- The range does not wrap the address space. -/
def InSpace (base : UInt32) (count : Nat) : Prop := base.toNat + count ≤ 2 ^ 32

instance (base : UInt32) (count : Nat) : Decidable (InSpace base count) :=
  inferInstanceAs (Decidable (_ ≤ _))

theorem byteAt_zero (base : UInt32) : byteAt base 0 = base := UInt32.add_zero base

theorem byteAt_succ (base : UInt32) (i : Nat) : byteAt base i + 1 = byteAt base (i + 1) := by
  rw [byteAt, byteAt, UInt32.ofNat_add, UInt32.add_assoc]
  rfl

theorem byteAt_pred (base : UInt32) (i : Nat) : byteAt base (i + 1) - 1 = byteAt base i := by
  rw [← byteAt_succ, UInt32.add_sub_cancel]

theorem byteAt_toNat {base : UInt32} {count i : Nat} (h : InSpace base count) (hi : i < count) :
    (byteAt base i).toNat = base.toNat + i := by
  unfold InSpace at h
  rw [byteAt, UInt32.toNat_add, UInt32.toNat_ofNat', Nat.add_mod_mod]
  exact Nat.mod_eq_of_lt (by omega)

/-- Two bytes with one address. -/
theorem byteAt_eq {first second : UInt32} {count i j : Nat} (h : InSpace first count)
    (h' : InSpace second count) (hi : i < count) (hj : j < count)
    (heq : byteAt first i = byteAt second j) : first.toNat + i = second.toNat + j := by
  rw [← byteAt_toNat h hi, heq, byteAt_toNat h' hj]

/-! ## What is written -/

/-- The bytes from `low` up to `high` of the destination hold `value`, and nothing else changed. -/
structure Written (before after : Memory) (destination : UInt32) (value : Nat → UInt8)
    (low high : Nat) : Prop where
  inside : ∀ i, low ≤ i → i < high → after (byteAt destination i) = value i
  outside : ∀ a, (∀ i, low ≤ i → i < high → a ≠ byteAt destination i) → after a = before a

section
variable {before m : Memory} {destination source : UInt32} {value : Nat → UInt8}
    {count low high : Nat}

theorem written_empty : Written before before destination value low low where
  inside _ hlow hhigh := absurd hhigh (Nat.not_lt.mpr hlow)
  outside _ _ := rfl

/-- The next byte upward. -/
theorem Written.up (h : Written before m destination value low high)
    (hspace : InSpace destination count) (hlow : low ≤ high) (hnext : high < count) :
    Written before (m.store (byteAt destination high) (value high)) destination value low
      (high + 1) where
  inside i hi hbelow := by
    rcases Nat.lt_or_eq_of_le (Nat.le_of_lt_succ hbelow) with hold | rfl
    · have hne : byteAt destination i ≠ byteAt destination high := fun heq => by
        have := byteAt_eq hspace hspace (Nat.lt_trans hold hnext) hnext heq
        omega
      rw [store_other hne]
      exact h.inside i hi hold
    · exact store_same ..
  outside a ha := by
    rw [store_other (ha high hlow (Nat.lt_succ_self high))]
    exact h.outside a fun i hi hbelow => ha i hi (Nat.lt_succ_of_lt hbelow)

/-- The next byte downward. -/
theorem Written.down (h : Written before m destination value (low + 1) high)
    (hspace : InSpace destination count) (hlow : low < high) (hhigh : high ≤ count) :
    Written before (m.store (byteAt destination low) (value low)) destination value low high where
  inside i hi hbelow := by
    rcases Nat.lt_or_eq_of_le hi with hold | rfl
    · have hne : byteAt destination i ≠ byteAt destination low := fun heq => by
        have := byteAt_eq hspace hspace (Nat.lt_of_lt_of_le hbelow hhigh)
          (Nat.lt_of_lt_of_le hlow hhigh) heq
        omega
      rw [store_other hne]
      exact h.inside i hold hbelow
    · exact store_same ..
  outside a ha := by
    rw [store_other (ha low (Nat.le_refl low) hlow)]
    exact h.outside a fun i hi hbelow => ha i (Nat.le_of_succ_le hi) hbelow

/-- What is not yet written is as it was. -/
theorem Written.unread (h : Written before m destination value low high)
    (hdestination : InSpace destination count) (hsource : InSpace source count)
    (hhigh : high ≤ count) {i : Nat} (hi : i < count)
    (hapart : ∀ j, low ≤ j → j < high → source.toNat + i ≠ destination.toNat + j) :
    m (byteAt source i) = before (byteAt source i) := by
  apply h.outside
  -- A byte that was written has another address.
  intro j hlow hj heq
  exact hapart j hlow hj (byteAt_eq hsource hdestination hi (Nat.lt_of_lt_of_le hj hhigh) heq)

/-- Upward, where no byte is written before it is read. -/
theorem copyUp_written (hdestination : InSpace destination count) (hsource : InSpace source count)
    (hapart : ∀ i j, j < i → i < count → source.toNat + i ≠ destination.toNat + j) {left done : Nat}
    (hcount : done + left = count)
    (h : Written before m destination (fun i => before (byteAt source i)) 0 done) :
    Written before (copyUp m (byteAt destination done) (byteAt source done) left) destination
      (fun i => before (byteAt source i)) 0 count := by
  induction left generalizing m done with
  | zero =>
    obtain rfl : done = count := hcount
    exact h
  | succ left ih =>
    have hnext : done < count := by omega
    have hread : m (byteAt source done) = before (byteAt source done) :=
      h.unread hdestination hsource (Nat.le_of_lt hnext) hnext fun j _ hj => hapart done j hj hnext
    rw [copyUp, byteAt_succ, byteAt_succ, hread]
    exact ih (by omega) (h.up hdestination (Nat.zero_le done) hnext)

/-- Downward above the source: what is written lies above every byte still to be read. -/
theorem copyDown_written (hdestination : InSpace destination count) (hsource : InSpace source count)
    (habove : source < destination) {left : Nat} (hcount : left ≤ count)
    (h : Written before m destination (fun i => before (byteAt source i)) left count) :
    Written before (copyDown m (byteAt destination left) (byteAt source left) left) destination
      (fun i => before (byteAt source i)) 0 count := by
  induction left generalizing m with
  | zero => exact h
  | succ left ih =>
    have horder : source.toNat < destination.toNat := habove
    have hread : m (byteAt source left) = before (byteAt source left) :=
      h.unread hdestination hsource (Nat.le_refl count) hcount fun j hj _ => by omega
    rw [copyDown, byteAt_pred, byteAt_pred, hread]
    exact ih (Nat.le_of_succ_le hcount) (h.down hdestination hcount (Nat.le_refl count))

theorem fill_written (hspace : InSpace destination count) {byte : UInt8} {left done : Nat}
    (hcount : done + left = count) (h : Written before m destination (fun _ => byte) 0 done) :
    Written before (fill m (byteAt destination done) byte left) destination
      (fun _ => byte) 0 count := by
  induction left generalizing m done with
  | zero =>
    obtain rfl : done = count := hcount
    exact h
  | succ left ih =>
    rw [fill, byteAt_succ]
    exact ih (by omega) (h.up hspace (Nat.zero_le done) (by omega))

/-- Every byte of a range is one of its bytes. -/
theorem Written.frame (h : Written before m destination value 0 count)
    (hspace : InSpace destination count) {a : UInt32}
    (ha : a.toNat < destination.toNat ∨ destination.toNat + count ≤ a.toNat) : m a = before a := by
  apply h.outside
  intro i _ hi heq
  have := byteAt_toNat hspace hi
  rw [← heq] at this
  omega

end

/-- Whatever the overlap, the destination holds what the source held, and nothing else changed. -/
theorem memmove_correct (m : Memory) {destination source count : UInt32}
    (hdestination : InSpace destination count.toNat) (hsource : InSpace source count.toNat) :
    (∀ i < count.toNat,
      (memmove m destination source count).1 (byteAt destination i) = m (byteAt source i)) ∧
    (∀ a : UInt32, a.toNat < destination.toNat ∨ destination.toNat + count.toNat ≤ a.toNat →
      (memmove m destination source count).1 a = m a) ∧
    (memmove m destination source count).2 = destination := by
  have hwritten : Written m (memmove m destination source count).1 destination (fun i =>
      m (byteAt source i)) 0 count.toNat := by
    unfold memmove
    split
    · -- what is written lies below every byte still to be read
      rename_i hbelow
      have horder : destination.toNat < source.toNat := hbelow
      have hcopy := copyUp_written hdestination hsource (fun i j _ _ => by
        omega) (Nat.zero_add _) (@written_empty m _ _ 0)
      rwa [byteAt_zero, byteAt_zero] at hcopy
    · split
      · rename_i habove
        have hcopy := copyDown_written hdestination hsource habove (Nat.le_refl _)
          (@written_empty m _ _ count.toNat)
        rwa [byteAt, byteAt, UInt32.ofNat_toNat] at hcopy
      · -- neither pointer is the lower one: the ranges are one
        rename_i hbelow habove
        obtain rfl : destination = source :=
          UInt32.toNat_inj.mp (Nat.le_antisymm (Nat.not_lt.mp habove) (Nat.not_lt.mp hbelow))
        exact ⟨fun _ _ _ => rfl, fun _ _ => rfl⟩
  refine ⟨fun i hi => hwritten.inside i (Nat.zero_le i) hi, fun a ha =>
    hwritten.frame hdestination ha, ?_⟩
  unfold memmove
  split
  · rfl
  · split
    · rfl
    · rfl

/-- Three bytes moved up by one, over themselves, at the top of the address space. -/
theorem memmove_correct_top :
    (memmove (fun a => a.toUInt8) 0xFFFFFFFD 0xFFFFFFFC 3).1 0xFFFFFFFF = 0xFE :=
  (@memmove_correct (fun a => a.toUInt8) 0xFFFFFFFD 0xFFFFFFFC 3 (by decide)
    (by decide)).1 2 (by decide)

/-- `restrict`: the ranges have no byte in common. -/
theorem memcpy_correct (m : Memory) {destination source count : UInt32}
    (hdestination : InSpace destination count.toNat) (hsource : InSpace source count.toNat)
    (hrestrict : destination.toNat + count.toNat ≤ source.toNat ∨
      source.toNat + count.toNat ≤ destination.toNat) :
    (∀ i < count.toNat,
      (memcpy m destination source count).1 (byteAt destination i) = m (byteAt source i)) ∧
    ∀ a : UInt32, a.toNat < destination.toNat ∨ destination.toNat + count.toNat ≤ a.toNat →
      (memcpy m destination source count).1 a = m a := by
  have hwritten := copyUp_written hdestination hsource (fun i j _ _ => by
    omega) (Nat.zero_add _) (@written_empty m _ _ 0)
  rw [byteAt_zero, byteAt_zero] at hwritten
  exact ⟨fun i hi => hwritten.inside i (Nat.zero_le i) hi, fun a ha =>
    hwritten.frame hdestination ha⟩

theorem memset_correct (m : Memory) {destination count : UInt32} (value : Int)
    (hspace : InSpace destination count.toNat) :
    (∀ i < count.toNat,
      (memset m destination value count).1 (byteAt destination i) = UInt8.ofInt value) ∧
    ∀ a : UInt32, a.toNat < destination.toNat ∨ destination.toNat + count.toNat ≤ a.toNat →
      (memset m destination value count).1 a = m a := by
  have hwritten := @fill_written m m destination _ hspace (UInt8.ofInt value) _ _ (Nat.zero_add _)
    (@written_empty m _ _ 0)
  rw [byteAt_zero] at hwritten
  exact ⟨fun i hi => hwritten.inside i (Nat.zero_le i) hi, fun a ha => hwritten.frame hspace ha⟩

end NrfKit.Runtime
