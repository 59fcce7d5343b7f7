import Mlrc.Algebra.ExpLog

/-!
# The byte arithmetic of the encoder is the field with 256 elements

`gfMul` and `gfInv` read the tables `gff_base` and `gflog_base`; addition is the exclusive or of
bytes.  `Gf` wraps a byte so that its ring operations are these and not the ones of `UInt8`.

* `xtime_xor`   multiplying by the generator is additive;
* `gffBase_eq`, `gffBase_gflogBase`   what is checked entry by entry about the two tables;
* `gfTables`   the tables as an `ExpLog`, so `Gf` is a field;
* `Gf.mk_xor`, `Gf.mk_gfMul`, `Gf.mk_gfInv`   the byte functions are the field operations;
* `Gf.two_pow_inj`   2 generates all nonzero elements.
-/

namespace Mlrc

open List Nat

/-- the table `gff_base` of the powers of the generator 2 -/
def gffBase : List UInt8 := [
  0x01, 0x02, 0x04, 0x08, 0x10, 0x20, 0x40, 0x80, 0x1d, 0x3a, 0x74, 0xe8, 0xcd, 0x87, 0x13,
  0x26, 0x4c, 0x98, 0x2d, 0x5a, 0xb4, 0x75, 0xea, 0xc9, 0x8f, 0x03, 0x06, 0x0c, 0x18, 0x30,
  0x60, 0xc0, 0x9d, 0x27, 0x4e, 0x9c, 0x25, 0x4a, 0x94, 0x35, 0x6a, 0xd4, 0xb5, 0x77, 0xee,
  0xc1, 0x9f, 0x23, 0x46, 0x8c, 0x05, 0x0a, 0x14, 0x28, 0x50, 0xa0, 0x5d, 0xba, 0x69, 0xd2,
  0xb9, 0x6f, 0xde, 0xa1, 0x5f, 0xbe, 0x61, 0xc2, 0x99, 0x2f, 0x5e, 0xbc, 0x65, 0xca, 0x89,
  0x0f, 0x1e, 0x3c, 0x78, 0xf0, 0xfd, 0xe7, 0xd3, 0xbb, 0x6b, 0xd6, 0xb1, 0x7f, 0xfe, 0xe1,
  0xdf, 0xa3, 0x5b, 0xb6, 0x71, 0xe2, 0xd9, 0xaf, 0x43, 0x86, 0x11, 0x22, 0x44, 0x88, 0x0d,
  0x1a, 0x34, 0x68, 0xd0, 0xbd, 0x67, 0xce, 0x81, 0x1f, 0x3e, 0x7c, 0xf8, 0xed, 0xc7, 0x93,
  0x3b, 0x76, 0xec, 0xc5, 0x97, 0x33, 0x66, 0xcc, 0x85, 0x17, 0x2e, 0x5c, 0xb8, 0x6d, 0xda,
  0xa9, 0x4f, 0x9e, 0x21, 0x42, 0x84, 0x15, 0x2a, 0x54, 0xa8, 0x4d, 0x9a, 0x29, 0x52, 0xa4,
  0x55, 0xaa, 0x49, 0x92, 0x39, 0x72, 0xe4, 0xd5, 0xb7, 0x73, 0xe6, 0xd1, 0xbf, 0x63, 0xc6,
  0x91, 0x3f, 0x7e, 0xfc, 0xe5, 0xd7, 0xb3, 0x7b, 0xf6, 0xf1, 0xff, 0xe3, 0xdb, 0xab, 0x4b,
  0x96, 0x31, 0x62, 0xc4, 0x95, 0x37, 0x6e, 0xdc, 0xa5, 0x57, 0xae, 0x41, 0x82, 0x19, 0x32,
  0x64, 0xc8, 0x8d, 0x07, 0x0e, 0x1c, 0x38, 0x70, 0xe0, 0xdd, 0xa7, 0x53, 0xa6, 0x51, 0xa2,
  0x59, 0xb2, 0x79, 0xf2, 0xf9, 0xef, 0xc3, 0x9b, 0x2b, 0x56, 0xac, 0x45, 0x8a, 0x09, 0x12,
  0x24, 0x48, 0x90, 0x3d, 0x7a, 0xf4, 0xf5, 0xf7, 0xf3, 0xfb, 0xeb, 0xcb, 0x8b, 0x0b, 0x16,
  0x2c, 0x58, 0xb0, 0x7d, 0xfa, 0xe9, 0xcf, 0x83, 0x1b, 0x36, 0x6c, 0xd8, 0xad, 0x47, 0x8e,
  0x01]

/-- the table `gflog_base` of the logarithms to base 2; the entry of 0 is never read -/
def gflogBase : List UInt8 := [
  0x00, 0xff, 0x01, 0x19, 0x02, 0x32, 0x1a, 0xc6, 0x03, 0xdf, 0x33, 0xee, 0x1b, 0x68, 0xc7,
  0x4b, 0x04, 0x64, 0xe0, 0x0e, 0x34, 0x8d, 0xef, 0x81, 0x1c, 0xc1, 0x69, 0xf8, 0xc8, 0x08,
  0x4c, 0x71, 0x05, 0x8a, 0x65, 0x2f, 0xe1, 0x24, 0x0f, 0x21, 0x35, 0x93, 0x8e, 0xda, 0xf0,
  0x12, 0x82, 0x45, 0x1d, 0xb5, 0xc2, 0x7d, 0x6a, 0x27, 0xf9, 0xb9, 0xc9, 0x9a, 0x09, 0x78,
  0x4d, 0xe4, 0x72, 0xa6, 0x06, 0xbf, 0x8b, 0x62, 0x66, 0xdd, 0x30, 0xfd, 0xe2, 0x98, 0x25,
  0xb3, 0x10, 0x91, 0x22, 0x88, 0x36, 0xd0, 0x94, 0xce, 0x8f, 0x96, 0xdb, 0xbd, 0xf1, 0xd2,
  0x13, 0x5c, 0x83, 0x38, 0x46, 0x40, 0x1e, 0x42, 0xb6, 0xa3, 0xc3, 0x48, 0x7e, 0x6e, 0x6b,
  0x3a, 0x28, 0x54, 0xfa, 0x85, 0xba, 0x3d, 0xca, 0x5e, 0x9b, 0x9f, 0x0a, 0x15, 0x79, 0x2b,
  0x4e, 0xd4, 0xe5, 0xac, 0x73, 0xf3, 0xa7, 0x57, 0x07, 0x70, 0xc0, 0xf7, 0x8c, 0x80, 0x63,
  0x0d, 0x67, 0x4a, 0xde, 0xed, 0x31, 0xc5, 0xfe, 0x18, 0xe3, 0xa5, 0x99, 0x77, 0x26, 0xb8,
  0xb4, 0x7c, 0x11, 0x44, 0x92, 0xd9, 0x23, 0x20, 0x89, 0x2e, 0x37, 0x3f, 0xd1, 0x5b, 0x95,
  0xbc, 0xcf, 0xcd, 0x90, 0x87, 0x97, 0xb2, 0xdc, 0xfc, 0xbe, 0x61, 0xf2, 0x56, 0xd3, 0xab,
  0x14, 0x2a, 0x5d, 0x9e, 0x84, 0x3c, 0x39, 0x53, 0x47, 0x6d, 0x41, 0xa2, 0x1f, 0x2d, 0x43,
  0xd8, 0xb7, 0x7b, 0xa4, 0x76, 0xc4, 0x17, 0x49, 0xec, 0x7f, 0x0c, 0x6f, 0xf6, 0x6c, 0xa1,
  0x3b, 0x52, 0x29, 0x9d, 0x55, 0xaa, 0xfb, 0x60, 0x86, 0xb1, 0xbb, 0xcc, 0x3e, 0x5a, 0xcb,
  0x59, 0x5f, 0xb0, 0x9c, 0xa9, 0xa0, 0x51, 0x0b, 0xf5, 0x16, 0xeb, 0x7a, 0x75, 0x2c, 0xd7,
  0x4f, 0xae, 0xd5, 0xe9, 0xe6, 0xe7, 0xad, 0xe8, 0x74, 0xd6, 0xf4, 0xea, 0xa8, 0x50, 0x58,
  0xaf]

def gfInv (a : UInt8) : UInt8 :=
  if a = 0 then 0 else gffBase.getD (255 - (gflogBase.getD a.toNat 0).toNat) 0

def gfMul (a b : UInt8) : UInt8 :=
  if a = 0 ∨ b = 0 then 0
  else
    let i := (gflogBase.getD a.toNat 0).toNat + (gflogBase.getD b.toNat 0).toNat
    gffBase.getD (if i > 254 then i - 255 else i) 0

/-! ## The tables -/

/-- multiplication by the generator: shift and reduce by `0x1d` -/
def xtime (a : UInt8) : UInt8 := (a <<< 1) ^^^ (if a &&& 0x80 ≠ 0 then 0x1d else 0)

theorem and_80_fin : ∀ a : Fin 256,
    (UInt8.ofNat a &&& 0x80 ≠ 0 ↔ (UInt8.ofNat a).toBitVec.msb = true) := by
  decide +kernel

theorem and_80_ne_zero_iff (a : UInt8) : a &&& 0x80 ≠ 0 ↔ a.toBitVec.msb = true := by
  have h := and_80_fin ⟨a.toNat, a.toNat_lt⟩
  rwa [UInt8.ofNat_toNat] at h

theorem xtime_xor (a b : UInt8) : xtime (a ^^^ b) = xtime a ^^^ xtime b := by
  have hs : (a ^^^ b) <<< 1 = (a <<< 1) ^^^ (b <<< 1) := by
    apply UInt8.toBitVec_inj.mp
    simp [BitVec.shiftLeft_xor_distrib]
  unfold xtime
  rw [hs]
  -- the reduction is taken when exactly one of the two top bits is set
  simp only [and_80_ne_zero_iff, UInt8.toBitVec_xor, BitVec.msb_xor]
  cases a.toBitVec.msb <;> cases b.toBitVec.msb
  · simp
  · simp [UInt8.xor_assoc]
  · simp [UInt8.xor_assoc, UInt8.xor_comm (b <<< 1)]
  · simp only [bne_self_eq_false, if_true, reduceCtorEq, if_false, UInt8.xor_zero]
    rw [UInt8.xor_comm (b <<< 1) 0x1d, UInt8.xor_assoc, ← UInt8.xor_assoc 0x1d, UInt8.xor_self,
      UInt8.zero_xor]

theorem gffBase_eq : gffBase = List.iterate xtime 1 256 := by
  decide +kernel

theorem gffBase_ne_zero : ∀ a ∈ gffBase, a ≠ 0 := by
  decide +kernel

theorem gffBase_length : gffBase.length = 256 := by
  rw [gffBase_eq, length_iterate]

theorem getD_gffBase {i : ℕ} (hi : i < 256) : gffBase.getD i 0 = xtime^[i] 1 := by
  rw [gffBase_eq, getD_eq_getElem _ _ (by rw [length_iterate]; exact hi),
    getElem_iterate]

theorem gffBase_gflogBase : ∀ a : Fin 256, a ≠ 0 →
    gffBase.getD ((gflogBase.getD a 0).toNat % 255) 0 = UInt8.ofNat a := by
  decide +kernel

theorem gffBase_last : gffBase.getD 255 0 = gffBase.getD 0 0 := by
  decide +kernel

theorem gffBase_getD_le {j : ℕ} (hj : j ≤ 255) : gffBase.getD j 0 = gffBase.getD (j % 255) 0 := by
  rcases lt_or_eq_of_le hj with h | rfl
  · rw [mod_eq_of_lt h]
  · exact gffBase_last

/-! ## The field -/

/-- a byte as an element of the field with 256 elements -/
@[ext]
structure Gf where
  byte : UInt8
deriving DecidableEq

namespace Gf

instance : Zero Gf := ⟨⟨0⟩⟩

instance : Add Gf := ⟨fun a b => ⟨a.byte ^^^ b.byte⟩⟩

instance : Neg Gf := ⟨fun a => a⟩

instance : AddCommGroup Gf where
  add_assoc a b c := Gf.ext (UInt8.xor_assoc a.byte b.byte c.byte)
  zero_add a := Gf.ext (UInt8.zero_xor (a := a.byte))
  add_zero a := Gf.ext (UInt8.xor_zero (a := a.byte))
  add_comm a b := Gf.ext (UInt8.xor_comm a.byte b.byte)
  neg_add_cancel a := Gf.ext (UInt8.xor_self (a := a.byte))
  nsmul := nsmulRec
  zsmul := zsmulRec

theorem mk_zero : Gf.mk 0 = 0 := rfl

theorem mk_xor (a b : UInt8) : Gf.mk (a ^^^ b) = Gf.mk a + Gf.mk b := rfl

@[simp] theorem mk_eq_zero {a : UInt8} : Gf.mk a = 0 ↔ a = 0 := Gf.mk.injEq a 0 ▸ Iff.rfl

theorem mk_inj {a b : UInt8} : Gf.mk a = Gf.mk b ↔ a = b := Gf.mk.injEq a b ▸ Iff.rfl

end Gf

/-- `gff_base` and `gflog_base` as tables of powers and logarithms of `xtime` -/
def gfTables : ExpLog Gf where
  gen := { toFun := fun a => ⟨xtime a.byte⟩
           map_zero' := rfl
           map_add' := fun a b => Gf.ext (xtime_xor a.byte b.byte) }
  order := 255
  exp i := ⟨gffBase.getD (i % 255) 0⟩
  log a := (gflogBase.getD a.byte.toNat 0).toNat
  exp_succ i := by
    have hi : i % 255 < 255 := mod_lt _ (by omega)
    have hle := gffBase_getD_le (succ_le_of_lt hi)
    rw [succ_eq_add_one, mod_add_mod, getD_gffBase (by omega),
      Function.iterate_succ_apply', ← getD_gffBase (by omega)] at hle
    exact Gf.ext hle.symm
  exp_order := rfl
  exp_ne_zero i := by
    have hi : i % 255 < gffBase.length := by rw [gffBase_length]; omega
    have hmem : gffBase.getD (i % 255) 0 ∈ gffBase := by
      rw [getD_eq_getElem _ _ hi]
      exact getElem_mem hi
    exact fun h0 => gffBase_ne_zero _ hmem (Gf.mk_eq_zero.mp h0)
  exp_log a ha := by
    have hlt : a.byte.toNat < 256 := a.byte.toNat_lt
    have h := gffBase_gflogBase ⟨a.byte.toNat, hlt⟩ (fun h0 => ha (Gf.ext (by
      apply UInt8.toNat_inj.mp
      exact congrArg Fin.val h0)))
    exact Gf.ext (h.trans (UInt8.ofNat_toNat))
  log_le a := le_of_lt_succ (UInt8.toNat_lt _)

namespace Gf

instance : Field Gf := gfTables.toField

theorem mk_one : Gf.mk 1 = 1 := rfl

theorem log_le (a : UInt8) : (gflogBase.getD a.toNat 0).toNat ≤ 255 :=
  le_of_lt_succ (UInt8.toNat_lt _)

theorem mk_gfMul (a b : UInt8) : Gf.mk (gfMul a b) = Gf.mk a * Gf.mk b := by
  show _ = gfTables.mul (Gf.mk a) (Gf.mk b)
  unfold gfMul ExpLog.mul
  simp only [mk_eq_zero]
  split
  · rfl
  · have ha := log_le a
    have hb := log_le b
    refine Gf.ext ?_
    show _ = gffBase.getD (((gflogBase.getD a.toNat 0).toNat + (gflogBase.getD b.toNat 0).toNat)
      % 255) 0
    simp only
    split
    · rw [gffBase_getD_le (by omega), mod_eq_sub_mod (a := _ + _) (by omega)]
    · rw [gffBase_getD_le (by omega)]

theorem mk_gfInv (a : UInt8) : Gf.mk (gfInv a) = (Gf.mk a)⁻¹ := by
  show _ = gfTables.inv (Gf.mk a)
  unfold gfInv ExpLog.inv
  simp only [mk_eq_zero]
  split
  · rfl
  · exact Gf.ext (gffBase_getD_le (sub_le _ _))

theorem two_pow (i : ℕ) : Gf.mk 2 ^ i = gfTables.exp i := by
  induction i with
  | zero => rfl
  | succ i ih =>
    rw [pow_succ, ih]
    show gfTables.mul (gfTables.exp i) (gfTables.exp 1) = gfTables.exp (i + 1)
    rw [gfTables.mul_exp, gfTables.exp_succ]
    rfl

theorem gffBase_nodup : (gffBase.take 255).Nodup := by
  decide +kernel

theorem gffBase_inj {i j : ℕ} (hi : i < 255) (hj : j < 255) (h : gffBase.getD i 0 = gffBase.getD j 0) :
    i = j := by
  have hlen : (gffBase.take 255).length = 255 := by
    rw [length_take, gffBase_length]
    rfl
  have hget : ∀ i < 255, gffBase.getD i 0 = (gffBase.take 255).getD i 0 := by
    intro i hi
    rw [getD_eq_getElem _ _ (by rw [gffBase_length]; omega),
      getD_eq_getElem _ _ (by rw [hlen]; exact hi), getElem_take]
  rw [hget i hi, hget j hj, getD_eq_getElem _ _ (by rw [hlen]; exact hi),
    getD_eq_getElem _ _ (by rw [hlen]; exact hj)] at h
  exact gffBase_nodup.getElem_inj_iff.mp h

theorem two_pow_inj {i j : ℕ} : Gf.mk 2 ^ i = Gf.mk 2 ^ j ↔ i % 255 = j % 255 := by
  rw [two_pow, two_pow]
  show Gf.mk (gffBase.getD (i % 255) 0) = Gf.mk (gffBase.getD (j % 255) 0) ↔ _
  rw [mk_inj]
  constructor
  · intro h
    exact gffBase_inj (mod_lt i (by decide)) (mod_lt j (by decide)) h
  · intro h
    rw [h]

instance : CharP Gf 2 := CharTwo.of_one_ne_zero_of_two_eq_zero one_ne_zero (by decide)

theorem mk_foldl_xor {α : Type*} (f : α → UInt8) (l : List α) (s : UInt8) :
    Gf.mk (l.foldl (fun s x => s ^^^ f x) s) = Gf.mk s + (l.map fun x => Gf.mk (f x)).sum := by
  induction l generalizing s with
  | nil => simp
  | cons x l ih => rw [foldl_cons, ih, mk_xor, map_cons, sum_cons, add_assoc]

end Gf

@[simp] theorem gfMul_zero_left (b : UInt8) : gfMul 0 b = 0 := by simp [gfMul]

@[simp] theorem gfMul_zero_right (a : UInt8) : gfMul a 0 = 0 := by simp [gfMul]

theorem gfInv_ne_zero {a : UInt8} (ha : a ≠ 0) : gfInv a ≠ 0 := by
  rw [Ne, ← Gf.mk_eq_zero, Gf.mk_gfInv, inv_eq_zero, Gf.mk_eq_zero]
  exact ha

end Mlrc
