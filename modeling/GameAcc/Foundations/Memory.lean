import Mathlib.Data.Int.Basic
import Mathlib.Tactic.Common

/-!
A memory of bytes, addressed by integers so that addresses before and behind a
buffer can be spoken of, and words of two bytes in it. A host keeps a word in its
own byte order; the network's has the high byte first.
-/

namespace GameAcc

abbrev Memory := ℤ → UInt8

namespace Memory

def poke (m : Memory) (a : ℤ) (v : UInt8) : Memory := fun i => if i = a then v else m i

def pokes (m : Memory) (a : ℤ) : List UInt8 → Memory
  | [] => m
  | v :: vs => pokes (poke m a v) (a + 1) vs

def slice (m : Memory) (a : ℤ) : Nat → List UInt8
  | 0 => []
  | n + 1 => m a :: slice m (a + 1) n

@[simp] theorem length_slice (m : Memory) (a : ℤ) (n : Nat) : (slice m a n).length = n := by
  induction n generalizing a with
  | zero => rfl
  | succ n ih => rw [slice, List.length_cons, ih]

theorem slice_congr {m m' : Memory} {a : ℤ} {n : Nat}
    (h : ∀ i, a ≤ i → i < a + n → m i = m' i) : slice m a n = slice m' a n := by
  induction n generalizing a with
  | zero => rfl
  | succ n ih =>
    rw [slice, slice, h a (Int.le_refl a) (by omega), ih]
    intro i hlow hhigh
    exact h i (by omega) (by omega)

theorem slice_add (m : Memory) (a : ℤ) (n k : Nat) :
    slice m a (n + k) = slice m a n ++ slice m (a + n) k := by
  induction n generalizing a with
  | zero => simp [slice]
  | succ n ih =>
    rw [Nat.succ_add, slice, slice, ih, List.cons_append]
    congr 3
    omega

theorem slice_succ (m : Memory) (a : ℤ) (n : Nat) :
    slice m a (n + 1) = slice m a n ++ [m (a + n)] := slice_add m a n 1

@[simp] theorem poke_same (m : Memory) (a : ℤ) (v : UInt8) : poke m a v a = v := if_pos rfl

theorem pokes_outside (m : Memory) {a : ℤ} {vs : List UInt8} {i : ℤ}
    (h : i < a ∨ a + vs.length ≤ i) : pokes m a vs i = m i := by
  induction vs generalizing m a with
  | nil => rfl
  | cons v vs ih =>
    simp only [List.length_cons] at h
    rw [pokes, ih (poke m a v) (by omega), poke, if_neg (by omega)]

theorem slice_pokes (m : Memory) (a : ℤ) (vs : List UInt8) :
    slice (pokes m a vs) a vs.length = vs := by
  induction vs generalizing m a with
  | nil => rfl
  | cons v vs ih =>
    rw [List.length_cons, slice, pokes, ih, pokes_outside _ (by omega), poke_same]

theorem pokes_append (m : Memory) (a : ℤ) (vs ws : List UInt8) :
    pokes m a (vs ++ ws) = pokes (pokes m a vs) (a + vs.length) ws := by
  induction vs generalizing m a with
  | nil => simp [pokes]
  | cons v vs ih =>
    rw [List.cons_append, pokes, ih, pokes, List.length_cons]
    congr 1
    omega

/-- The bytes behind those that were written are as before. -/
theorem slice_pokes_outside (m : Memory) {a b : ℤ} {vs : List UInt8} {n : Nat}
    (h : b + n ≤ a ∨ a + vs.length ≤ b) : slice (pokes m a vs) b n = slice m b n := by
  apply slice_congr
  intro i _ _
  exact pokes_outside m (by omega)

/-- A slice of what was written. -/
theorem slice_pokes_take (m : Memory) (a : ℤ) (vs : List UInt8) {k n : Nat}
    (h : k + n ≤ vs.length) : slice (pokes m a vs) (a + k) n = (vs.drop k).take n := by
  have hall : slice (pokes m a vs) a (k + (n + (vs.length - k - n))) = vs := by
    rw [show k + (n + (vs.length - k - n)) = vs.length by omega, slice_pokes]
  rw [slice_add, slice_add] at hall
  calc slice (pokes m a vs) (a + k) n
      = ((slice (pokes m a vs) a k ++ (slice (pokes m a vs) (a + k) n ++
          slice (pokes m a vs) (a + k + n) (vs.length - k - n))).drop k).take n := by
        rw [List.drop_left' (length_slice ..), List.take_left' (length_slice ..)]
    _ = (vs.drop k).take n := by rw [hall]

end Memory

/-- The order a host keeps the two bytes of a word in. -/
inductive Host where
  | little
  | big
deriving DecidableEq

def wide (high low : UInt8) : UInt16 := UInt16.ofNat (high.toNat * 256 + low.toNat)

def high (v : UInt16) : UInt8 := UInt8.ofNat (v.toNat / 256)

def low (v : UInt16) : UInt8 := UInt8.ofNat (v.toNat % 256)

theorem toNat_wide (h l : UInt8) : (wide h l).toNat = h.toNat * 256 + l.toNat := by
  have hh := h.toNat_lt
  have hl := l.toNat_lt
  rw [wide, UInt16.toNat_ofNat']
  omega

@[simp] theorem high_wide (h l : UInt8) : high (wide h l) = h := by
  have hl := l.toNat_lt
  apply UInt8.toNat_inj.mp
  rw [high, toNat_wide, UInt8.toNat_ofNat']
  have hh := h.toNat_lt
  omega

@[simp] theorem low_wide (h l : UInt8) : low (wide h l) = l := by
  have hl := l.toNat_lt
  apply UInt8.toNat_inj.mp
  rw [low, toNat_wide, UInt8.toNat_ofNat']
  omega

@[simp] theorem wide_high_low (v : UInt16) : wide (high v) (low v) = v := by
  have hv := v.toNat_lt
  apply UInt16.toNat_inj.mp
  rw [toNat_wide, high, low, UInt8.toNat_ofNat', UInt8.toNat_ofNat']
  omega

/-- Turns a word of the host's order into one of the network's, and back. -/
def ntohs : Host → UInt16 → UInt16
  | .little, v => wide (low v) (high v)
  | .big, v => v

abbrev htons : Host → UInt16 → UInt16 := ntohs

@[simp] theorem ntohs_ntohs (e : Host) (v : UInt16) : ntohs e (ntohs e v) = v := by
  cases e <;> simp [ntohs]

namespace Memory

def word (e : Host) (m : Memory) (a : ℤ) : UInt16 :=
  match e with
  | .little => wide (m (a + 1)) (m a)
  | .big => wide (m a) (m (a + 1))

def setWord (e : Host) (m : Memory) (a : ℤ) (v : UInt16) : Memory :=
  match e with
  | .little => pokes m a [low v, high v]
  | .big => pokes m a [high v, low v]

/-- The word at an address in the network's order. -/
def net (m : Memory) (a : ℤ) : UInt16 := wide (m a) (m (a + 1))

variable (e : Host) (m : Memory)

theorem setWord_outside {a i : ℤ} (v : UInt16) (h : i < a ∨ a + 2 ≤ i) :
    setWord e m a v i = m i := by
  cases e <;> exact pokes_outside m h

@[simp] theorem word_setWord (a : ℤ) (v : UInt16) : word e (setWord e m a v) a = v := by
  have hnext : a ≠ a + 1 := by omega
  cases e <;> simp [word, setWord, pokes, poke, hnext]

theorem word_setWord_ne {a b : ℤ} (v : UInt16) (h : b + 2 ≤ a ∨ a + 2 ≤ b) :
    word e (setWord e m a v) b = word e m b := by
  have hfirst := setWord_outside e m (a := a) (i := b) v (by omega)
  have hsecond := setWord_outside e m (a := a) (i := b + 1) v (by omega)
  cases e <;> simp only [word, hfirst, hsecond]

theorem word_congr {m m' : Memory} {a : ℤ} (h : m a = m' a) (h' : m (a + 1) = m' (a + 1)) :
    word e m a = word e m' a := by
  cases e <;> simp only [word, h, h']

theorem setWord_htons (a : ℤ) (v : UInt16) :
    setWord e m a (htons e v) = pokes m a [high v, low v] := by
  cases e <;> simp [setWord, ntohs]

/-- A word that was received. -/
theorem net_pokes {a i : ℤ} (v : UInt16) (rest : List UInt8) (hi : i = a) :
    net (pokes m a (high v :: low v :: rest)) i = v := by
  subst hi
  have hhigh : pokes m i (high v :: low v :: rest) i = high v := by
    rw [pokes, pokes_outside _ (.inl (by omega)), poke_same]
  have hlow : pokes m i (high v :: low v :: rest) (i + 1) = low v := by
    rw [pokes, pokes, pokes_outside _ (.inl (by omega)), poke_same]
  rw [net, hhigh, hlow, wide_high_low]

theorem ntohs_word (a : ℤ) : ntohs e (word e m a) = net m a := by
  cases e <;> simp [ntohs, word, net]

end Memory

end GameAcc
