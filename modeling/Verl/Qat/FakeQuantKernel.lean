import Verl.Lib.MiniFloat
import Verl.Qat.AmaxCache

/-! # The fake quantisation of weights (`verl/utils/qat/linear.py`)

In a training forward a `QATLinear` rounds its weight as the export will store it.  The programs of
the kernel have a tile each; the columns of a tile are blocks of `block_size`, and the entries of a
block are rounded to FP4 with one scale.

    columns      0 .. 15 | 16 .. 31 | 32 .. 47 | 48 .. 63 || 64 .. 79 | ...
                 block     block      block      block       block
                 tile 0                                      tile 1

* `fp4FakeQuantWeight_eq`: its entries do not depend on the tiles. -/

namespace Verl.Qat

/-! ## Algorithm -/

/-- `tl.load` with `boundary_check` and zeros as the padding. -/
def load (m n : Nat) (x : Nat → Nat → ℚ) (i j : Nat) : ℚ := if i < m ∧ j < n then x i j else 0

/-- The largest absolute value of block `b` of row `i`. -/
def blockMax (blockSize : Nat) (x : Nat → Nat → ℚ) (i b : Nat) : ℚ :=
  amax ((List.range blockSize).map fun k => x i (b * blockSize + k))

/-- `q_val`: the FP4 value next to `absScaled`. -/
def qVal (absScaled : ℚ) : ℚ :=
  if absScaled ≤ 1 / 4 then 0
  else if absScaled < 3 / 4 then 1 / 2
  else if absScaled ≤ 5 / 4 then 1
  else if absScaled < 7 / 4 then 3 / 2
  else if absScaled ≤ 5 / 2 then 2
  else if absScaled < 7 / 2 then 3
  else if absScaled ≤ 5 then 4
  else 6

/-- `block_max_quant`: the scale of a block. -/
def blockMaxQuant (globalScale blockMax : ℚ) : ℚ :=
  let globalScaleSafe := if 0 < globalScale then globalScale else 1 / 10 ^ 12
  let blockMaxScaled := min (blockMax / (6 * globalScaleSafe)) 448
  let blockMaxQuant := e4m3.round blockMaxScaled * globalScale
  if 1 / 10 ^ 5 ≤ blockMaxQuant then blockMaxQuant else 1

/-- An entry rounded with a scale. -/
def rescaled (scale x : ℚ) : ℚ :=
  let xRescaled := qVal (|x| / scale) * scale
  if 0 ≤ x then xRescaled else -xRescaled

/-- The entry in row `r` and column `c` of the tile of program `(pidM, pidN)`. -/
def fp4FakeQuantKernel (x : Nat → Nat → ℚ) (m n : Nat) (globalScale : ℚ)
    (blockSize tileM tileN pidM pidN r c : Nat) : ℚ :=
  let rowStart := pidM * tileM
  let colStart := pidN * tileN
  let tile := fun r c => load m n x (rowStart + r) (colStart + c)
  rescaled (blockMaxQuant globalScale (blockMax blockSize tile r (c / blockSize))) (tile r c)

/-- The entry in row `i` and column `j` is stored by the program with this entry in its tile. -/
def fp4FakeQuantWeight (x : Nat → Nat → ℚ) (m n : Nat) (globalAmax : ℚ) (blockSize i j : Nat) : ℚ :=
  let tileRows := 16
  let tileCols := max 64 blockSize
  let tileColsAligned := (tileCols + blockSize - 1) / blockSize * blockSize
  let globalScale := globalAmax / (6 * 448)
  fp4FakeQuantKernel x m n globalScale blockSize tileRows tileColsAligned (i / tileRows)
    (j / tileColsAligned) (i % tileRows) (j % tileColsAligned)

/-! ## Tiles -/

theorem block_in_tile {blockSize tileN : Nat} (hdvd : blockSize ∣ tileN) (j k : Nat) :
    j / tileN * tileN + (j % tileN / blockSize * blockSize + k) = j / blockSize * blockSize + k := by
  have htile := Nat.div_add_mod' j tileN
  have hblock := Nat.div_add_mod' j blockSize
  have hin := Nat.div_add_mod' (j % tileN) blockSize
  have hmod := Nat.mod_mod_of_dvd j hdvd
  omega

theorem block_lt {blockSize n j k : Nat} (hdvd : blockSize ∣ n) (hj : j < n) (hk : k < blockSize) :
    j / blockSize * blockSize + k < n := by
  obtain ⟨blocks, rfl⟩ := hdvd
  have hlt : j / blockSize < blocks := Nat.div_lt_of_lt_mul hj
  have hle : (j / blockSize + 1) * blockSize ≤ blockSize * blocks := by
    rw [Nat.mul_comm blockSize]
    exact Nat.mul_le_mul_right blockSize hlt
  rw [Nat.succ_mul] at hle
  omega

theorem fp4FakeQuantWeight_eq {x : Nat → Nat → ℚ} {m n blockSize i j : Nat} (globalAmax : ℚ)
    (hdvd : blockSize ∣ n) (hi : i < m) (hj : j < n) :
    fp4FakeQuantWeight x m n globalAmax blockSize i j =
      rescaled (blockMaxQuant (globalAmax / (6 * 448)) (blockMax blockSize x i (j / blockSize)))
        (x i j) := by
  unfold fp4FakeQuantWeight fp4FakeQuantKernel
  dsimp only
  generalize htileN : (max 64 blockSize + blockSize - 1) / blockSize * blockSize = tileN
  have htile : blockSize ∣ tileN := ⟨_, by rw [← htileN, Nat.mul_comm]⟩
  have hrow : i / 16 * 16 + i % 16 = i := Nat.div_add_mod' i 16
  have hcol : j / tileN * tileN + j % tileN = j := Nat.div_add_mod' j tileN
  have hblock : blockMax blockSize
      (fun r c => load m n x (i / 16 * 16 + r) (j / tileN * tileN + c)) (i % 16)
        (j % tileN / blockSize) = blockMax blockSize x i (j / blockSize) := by
    refine congrArg amax (List.map_congr_left fun k hk => ?_)
    rw [List.mem_range] at hk
    unfold load
    dsimp only
    rw [hrow, block_in_tile htile, if_pos ⟨hi, block_lt hdvd hj hk⟩]
  rw [hblock, hrow, hcol, load, if_pos ⟨hi, hj⟩]

/-! ## Rounding to FP4 -/

theorem qVal_eq_zero_iff {a : ℚ} : qVal a = 0 ↔ a ≤ 1 / 4 := by
  unfold qVal
  constructor
  · grind
  · intro h
    exact if_pos h

theorem rescaled_eq_zero_iff {scale : ℚ} (h : 0 < scale) (x : ℚ) :
    rescaled scale x = 0 ↔ |x| ≤ scale / 4 := by
  have hval : qVal (|x| / scale) * scale = 0 ↔ |x| ≤ scale / 4 := by
    rw [mul_eq_zero, or_iff_left h.ne', qVal_eq_zero_iff, div_le_iff₀ h, div_mul_eq_mul_div, one_mul]
  unfold rescaled
  split
  · exact hval
  · grind

end Verl.Qat
