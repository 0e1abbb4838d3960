import Mathlib.Logic.Function.Basic
import Presence3DS.Lib.Tilings

/-! The memory of a program, which the loader may allocate in chunks of random size and order
(`paslr.c`). -/

namespace Presence3DS.Loader.Paslr

open Tilings

/-! ## Which programs are randomised -/

/-- What `needsPaslr` reads of the extended header. -/
structure ExHeaderInfo where
  descriptors : List UInt32
  reslimitCategory : ℕ
  titleId : UInt64
deriving DecidableEq

def memopRegionApp : UInt32 := 0x100
def memopRegionSystem : UInt32 := 0x200
def reslimitCategoryLibApplet : ℕ := 2

def titleUidListForPaslr : List UInt64 :=
  [0x0209, 0x0219, 0x0229, 0x0269, 0x0289, 0x0334, 0x0335, 0x0336, 0x0343, 0x0465, 0x04B3,
    0x0913, 0x09FA, 0x0933, 0x07FD, 0x0961, 0x0A5D, 0x0A5E, 0x0A6F, 0x0C61, 0x0C81, 0x0D7C,
    0x0D7D, 0x0D7E, 0x11C4, 0x11C5, 0x149B, 0x1746, 0x1744, 0x1773, 0x12C1, 0x136E, 0x17C1]

/-- A descriptor may give the region or the version of the kernel. -/
def readDescriptor (found : UInt32 × UInt32) (desc : UInt32) : UInt32 × UInt32 :=
  if desc >>> 23 = 0x1FE then (desc &&& 0xF00, found.2)
  else if desc >>> 25 = 0x7E then (found.1, desc &&& 0xFFFF)
  else found

def regionAndKernelVer (exhi : ExHeaderInfo) : UInt32 × UInt32 :=
  (exhi.descriptors.take 28).foldl readDescriptor (0, 0)

/-- `needsPaslr` and the region; `enabled` is whether the loader is built with PASLR. -/
def needsPaslr (enabled : Bool) (exhi : ExHeaderInfo) : Bool × UInt32 :=
  let (region, minKernelVer) := regionAndKernelVer exhi
  if !enabled then (false, region)
  else if region ≠ memopRegionApp ∧ region ≠ memopRegionSystem then (false, region)
  else if region = memopRegionSystem ∧ exhi.reslimitCategory = reslimitCategoryLibApplet then
    (false, region)
  else if 0x239 ≤ minKernelVer then (true, region)
  else if exhi.titleId >>> 46 ≠ 0x10 then (false, region)
  else (titleUidListForPaslr.contains ((exhi.titleId >>> 8) &&& 0xFFFFF), region)

/-! ## Random numbers -/

/-- The state of the generator, and what the system ticks will read. -/
structure Rng where
  state : UInt64
  ticks : ℕ → UInt64

/-- `getRandomInt`; the tick is shifted as a signed number. -/
def getRandomInt (maxNum : ℕ) (g : Rng) : ℕ × Rng :=
  let tick := (g.ticks 0).toInt64
  let tmp := (g.state >>> 7) - (tick >>> 2).toUInt64
  let state := (tmp ^^^ g.state) &&& 0x49CC9BA7FC61CA67
  let tmp := 0x5D588B656C078965 * state + 0x29EC3
  ((((tmp >>> 32) * UInt64.ofNat maxNum) >>> 32).toUInt32.toNat,
    ⟨state, fun k => g.ticks (k + 1)⟩)

/-! ## The chunks -/

def chunkAt (vaddr curPage numPages : ℕ) : Chunk :=
  ⟨(vaddr + curPage * 2 ^ 12) % space, numPages * 2 ^ 12⟩

/-- The loop that makes `n` more chunks of random size from the page `curPage` on, with the page
that it comes to. -/
def randomChunks (vaddr totalNumPages : ℕ) : ℕ → ℕ → Rng → List Chunk × ℕ × Rng
  | 0, curPage, g => ([], curPage, g)
  | n + 1, curPage, g =>
    let maxUnits := (totalNumPages - curPage) / 16
    if maxUnits = 0 then ([], curPage, g)
    else
      let maxUnits := if 15 < maxUnits then 15 else maxUnits
      let (r, g) := getRandomInt maxUnits g
      let numPages := 16 * (1 + r)
      let (cs, lastPage, g) := randomChunks vaddr totalNumPages n (curPage + numPages) g
      (chunkAt vaddr curPage numPages :: cs, lastPage, g)

/-- The chunks of the virtual range; the last one gets the rest. -/
def divide (vaddr size : ℕ) (g : Rng) : List Chunk × Rng :=
  let totalNumPages := size / 2 ^ 12
  let (cs, curPage, g) := randomChunks vaddr totalNumPages 7 0 g
  if curPage < totalNumPages then
    (cs ++ [chunkAt vaddr curPage (totalNumPages - curPage)], g)
  else (cs, g)

/-- The exchange of two entries of `chunkOrder`. -/
def exchange (chunkOrder : ℕ → ℕ) (i j : ℕ) : ℕ → ℕ :=
  let tmp := chunkOrder i
  let chunkOrder := Function.update chunkOrder i (chunkOrder j)
  Function.update chunkOrder j tmp

/-- The loop that shuffles the first `n` entries of the order, from the last one down. -/
def shuffle : ℕ → (ℕ → ℕ) → Rng → (ℕ → ℕ) × Rng
  | 0, chunkOrder, g => (chunkOrder, g)
  | i + 1, chunkOrder, g =>
    let (j, g) := getRandomInt (i + 1) g
    shuffle i (exchange chunkOrder i j) g

/-! ## The allocation -/

/-- A call of `svcControlMemory`, with its success if it allocates. -/
inductive Call where
  | alloc (chunk : Chunk) (taken : Bool)
  | free (chunk : Chunk)
deriving DecidableEq

/-- The loop that allocates the chunks from the `i`th of the order on, as far as `n` more; `takes`
tells which of the calls succeed. It ends at the index of the call that fails. -/
def allocateFrom (chunk : ℕ → Chunk) (takes : ℕ → Bool) : ℕ → ℕ → ℕ × List Call
  | 0, i => (i, [])
  | n + 1, i =>
    if takes i then
      let (last, calls) := allocateFrom chunk takes n (i + 1)
      (last, .alloc (chunk i) true :: calls)
    else (i, [.alloc (chunk i) false])

/-- The loop that frees after a failure at the index `i`: the entry of the order that it reads is
the `i`th one each time. -/
def cleanUp (chunk : ℕ → Chunk) (i : ℕ) : List Call :=
  (List.range i).map fun _ => .free (chunk i)

/-- The chunks in the order in which they are allocated. -/
def ordered (vaddr size : ℕ) (g : Rng) : ℕ × (ℕ → Chunk) :=
  let (cs, g) := divide vaddr size g
  let numChunks := cs.length
  let numChunksToRandomize :=
    if size / 2 ^ 12 % 16 ≠ 0 then numChunks - 1 else numChunks
  let (chunkOrder, _) := shuffle numChunksToRandomize id g
  (numChunks, fun i => cs.getD (chunkOrder i) ⟨0, 0⟩)

/-- `allocateProgramMemory`: whether it succeeds, and the calls that it makes. -/
def allocateProgramMemory (enabled : Bool) (exhi : ExHeaderInfo) (vaddr size : UInt32) (g : Rng)
    (takes : ℕ → Bool) : Bool × List Call :=
  let (doPaslr, region) := needsPaslr enabled exhi
  if region = 0 then (false, [])
  else if !doPaslr then
    (takes 0, [.alloc ⟨vaddr.toNat, size.toNat⟩ (takes 0)])
  else
    let (numChunks, chunk) := ordered vaddr.toNat size.toNat g
    let (i, calls) := allocateFrom chunk takes numChunks 0
    if i = numChunks then (true, calls) else (false, calls ++ cleanUp chunk i)

/-! The chunks of a randomised program tile its range, and what is freed when one of them is
refused. -/

/-! ## The chunks follow one another -/

theorem getRandomInt_lt {maxNum : ℕ} (hpos : 0 < maxNum) (hlt : maxNum < 2 ^ 32) (g : Rng) :
    (getRandomInt maxNum g).1 < maxNum := by
  unfold getRandomInt
  dsimp only
  generalize (0x5D588B656C078965 * _ + 0x29EC3 : UInt64) = tmp
  have hhigh : (tmp >>> 32).toNat < 2 ^ 32 := by
    rw [UInt64.toNat_shiftRight]
    have htmp := tmp.toNat_lt
    show tmp.toNat >>> 32 < _
    rw [Nat.shiftRight_eq_div_pow]
    omega
  have hprod : (tmp >>> 32).toNat * maxNum < 2 ^ 32 * maxNum := by
    exact Nat.mul_lt_mul_of_pos_right hhigh hpos
  have hnum : (UInt64.ofNat maxNum).toNat = maxNum := by
    rw [UInt64.toNat_ofNat']
    exact Nat.mod_eq_of_lt (hlt.trans (by decide))
  rw [UInt64.toNat_toUInt32, UInt64.toNat_shiftRight, UInt64.toNat_mul, hnum]
  show ((tmp >>> 32).toNat * maxNum % 2 ^ 64) >>> 32 % 2 ^ 32 < maxNum
  rw [Nat.shiftRight_eq_div_pow]
  generalize (tmp >>> 32).toNat * maxNum = p at hprod
  omega

theorem randomChunks_follow (vaddr totalNumPages n curPage : ℕ) (g : Rng)
    (hcur : curPage ≤ totalNumPages) :
    Follow vaddr (curPage * 2 ^ 12) (randomChunks vaddr totalNumPages n curPage g).1
        ((randomChunks vaddr totalNumPages n curPage g).2.1 * 2 ^ 12) ∧
      (randomChunks vaddr totalNumPages n curPage g).2.1 ≤ totalNumPages ∧
      (randomChunks vaddr totalNumPages n curPage g).1.length ≤ n := by
  induction n generalizing curPage g with
  | zero => exact ⟨rfl, hcur, le_rfl⟩
  | succ n ih =>
    unfold randomChunks
    by_cases hzero : (totalNumPages - curPage) / 16 = 0
    · rw [if_pos hzero]
      exact ⟨rfl, hcur, Nat.zero_le _⟩
    rw [if_neg hzero]
    dsimp only
    generalize hunits : (if 15 < (totalNumPages - curPage) / 16 then 15
      else (totalNumPages - curPage) / 16) = maxUnits
    have hmax : 0 < maxUnits ∧ maxUnits ≤ 15 ∧ 16 * maxUnits ≤ totalNumPages - curPage := by
      rw [← hunits]
      split_ifs
      · omega
      · omega
    have hr := getRandomInt_lt hmax.1 (by omega) g
    generalize getRandomInt maxUnits g = drawn at hr ⊢
    obtain ⟨r, g'⟩ := drawn
    dsimp only at hr ⊢
    obtain ⟨hfollow, hlast, hlen⟩ := ih (curPage + 16 * (1 + r)) g' (by omega)
    generalize randomChunks vaddr totalNumPages n (curPage + 16 * (1 + r)) g' = rest
      at hfollow hlast hlen ⊢
    obtain ⟨cs, last, g''⟩ := rest
    dsimp only at hfollow hlast hlen ⊢
    refine ⟨⟨rfl, ?_, ?_⟩, hlast, Nat.succ_le_succ hlen⟩
    · show 0 < 16 * (1 + r) * 2 ^ 12
      omega
    · show Follow vaddr (curPage * 2 ^ 12 + 16 * (1 + r) * 2 ^ 12) cs (last * 2 ^ 12)
      rw [← Nat.add_mul]
      exact hfollow

theorem divide_follow (vaddr size : ℕ) (g : Rng) (halign : size % 2 ^ 12 = 0) :
    Follow vaddr 0 (divide vaddr size g).1 size ∧ (divide vaddr size g).1.length ≤ 8 := by
  have hsize : size / 2 ^ 12 * 2 ^ 12 = size := Nat.div_mul_cancel (Nat.dvd_of_mod_eq_zero halign)
  obtain ⟨hfollow, hcur, hlen⟩ := randomChunks_follow vaddr (size / 2 ^ 12) 7 0 g (Nat.zero_le _)
  unfold divide
  dsimp only
  generalize randomChunks vaddr (size / 2 ^ 12) 7 0 g = run at hfollow hcur hlen ⊢
  obtain ⟨cs, curPage, g'⟩ := run
  dsimp only at hfollow hcur hlen ⊢
  rw [Nat.zero_mul] at hfollow
  split_ifs with hrest
  · have hlast : Follow vaddr (curPage * 2 ^ 12)
        [chunkAt vaddr curPage (size / 2 ^ 12 - curPage)] size := by
      refine ⟨rfl, ?_, ?_⟩
      · show 0 < (size / 2 ^ 12 - curPage) * 2 ^ 12
        omega
      · show curPage * 2 ^ 12 + (size / 2 ^ 12 - curPage) * 2 ^ 12 = size
        rw [← Nat.add_mul, Nat.add_sub_cancel' hcur, hsize]
    refine ⟨hfollow.append hlast, ?_⟩
    rw [List.length_append, List.length_singleton]
    exact Nat.succ_le_succ hlen
  · have hend : curPage = size / 2 ^ 12 := Nat.le_antisymm hcur (Nat.not_lt.mp hrest)
    rw [hend, hsize] at hfollow
    exact ⟨hfollow, hlen.trans (by decide)⟩

/-! ## The order is a permutation -/

theorem exchange_eq (chunkOrder : ℕ → ℕ) (i j : ℕ) :
    exchange chunkOrder i j = chunkOrder ∘ Equiv.swap i j := by
  funext k
  show Function.update (Function.update chunkOrder i (chunkOrder j)) j (chunkOrder i) k = _
  rw [Function.comp_apply]
  by_cases hj : k = j
  · subst hj
    rw [Function.update_self, Equiv.swap_apply_right]
  · rw [Function.update_of_ne hj]
    by_cases hi : k = i
    · subst hi
      rw [Function.update_self, Equiv.swap_apply_left]
    · rw [Function.update_of_ne hi, Equiv.swap_apply_of_ne_of_ne hi hj]

theorem shuffle_eq (n : ℕ) (hn : n < 2 ^ 32) (chunkOrder : ℕ → ℕ) (g : Rng) :
    ∃ σ : Equiv.Perm ℕ, (∀ k, n ≤ k → σ k = k) ∧ (shuffle n chunkOrder g).1 = chunkOrder ∘ σ := by
  induction n generalizing chunkOrder g with
  | zero => exact ⟨Equiv.refl ℕ, fun _ _ => rfl, rfl⟩
  | succ i ih =>
    unfold shuffle
    have hj := getRandomInt_lt (Nat.succ_pos i) hn g
    generalize getRandomInt (i + 1) g = drawn at hj ⊢
    obtain ⟨j, g'⟩ := drawn
    obtain ⟨σ, hfix, heq⟩ := ih (Nat.lt_of_succ_lt hn) (exchange chunkOrder i j) g'
    refine ⟨σ.trans (Equiv.swap i j), ?_, ?_⟩
    · intro k hk
      rw [Equiv.trans_apply, hfix k (Nat.le_of_succ_le hk)]
      dsimp only at hj
      exact Equiv.swap_apply_of_ne_of_ne (by omega) (by omega)
    · dsimp only
      rw [heq, exchange_eq]
      rfl

theorem ordered_perm (vaddr size : ℕ) (g : Rng) (halign : size % 2 ^ 12 = 0) :
    ((List.range (ordered vaddr size g).1).map (ordered vaddr size g).2).Perm
      (divide vaddr size g).1 := by
  have hlen := (divide_follow vaddr size g halign).2
  unfold ordered
  generalize divide vaddr size g = division at hlen ⊢
  obtain ⟨cs, g'⟩ := division
  dsimp only at hlen ⊢
  generalize hn : (if size / 2 ^ 12 % 16 ≠ 0 then cs.length - 1 else cs.length) = n
  have hle : n ≤ cs.length := by
    rw [← hn]
    split_ifs
    · exact Nat.sub_le _ _
    · exact le_rfl
  obtain ⟨σ, hfix, heq⟩ := shuffle_eq n (by omega) id g'
  rw [heq]
  have hperm := perm_map_range (fun k => cs.getD k ⟨0, 0⟩) σ fun k hk => hfix k (hle.trans hk)
  refine hperm.trans (List.Perm.of_eq ?_)
  refine List.ext_getElem (by simp) fun k hk hk' => ?_
  simp [hk']

theorem ordered_fst (vaddr size : ℕ) (g : Rng) :
    (ordered vaddr size g).1 = (divide vaddr size g).1.length := rfl

/-! ## The calls -/

/-- The chunks that are allocated, in order. -/
def allocated : List Call → List Chunk
  | [] => []
  | .alloc c true :: calls => c :: allocated calls
  | _ :: calls => allocated calls

def freed : List Call → List Chunk
  | [] => []
  | .free c :: calls => c :: freed calls
  | _ :: calls => freed calls

theorem allocated_append (calls more : List Call) :
    allocated (calls ++ more) = allocated calls ++ allocated more := by
  induction calls with
  | nil => rfl
  | cons call calls ih =>
    rcases call with ⟨c, _ | _⟩ | c
    · exact ih
    · exact congrArg (c :: ·) ih
    · exact ih

theorem freed_append (calls more : List Call) :
    freed (calls ++ more) = freed calls ++ freed more := by
  induction calls with
  | nil => rfl
  | cons call calls ih =>
    rcases call with ⟨c, _ | _⟩ | c
    · exact ih
    · exact ih
    · exact congrArg (c :: ·) ih

variable {chunk : ℕ → Chunk} {takes : ℕ → Bool} {n i : ℕ}

theorem allocateFrom_spec (chunk : ℕ → Chunk) (takes : ℕ → Bool) (n i : ℕ) :
    i ≤ (allocateFrom chunk takes n i).1 ∧ (allocateFrom chunk takes n i).1 ≤ i + n ∧
    (∀ k, i ≤ k → k < (allocateFrom chunk takes n i).1 → takes k = true) ∧
    ((allocateFrom chunk takes n i).1 < i + n →
      takes (allocateFrom chunk takes n i).1 = false) ∧
    allocated (allocateFrom chunk takes n i).2 =
      (List.range' i ((allocateFrom chunk takes n i).1 - i)).map chunk ∧
    freed (allocateFrom chunk takes n i).2 = [] := by
  induction n generalizing i with
  | zero =>
    show i ≤ i ∧ i ≤ i + 0 ∧ (∀ k, i ≤ k → k < i → _) ∧ (i < i + 0 → _) ∧
      [] = (List.range' i (i - i)).map chunk ∧ [] = []
    rw [Nat.sub_self]
    exact ⟨le_rfl, le_rfl, fun k hle hlt => absurd hlt (Nat.not_lt.mpr hle),
      fun h => absurd h (Nat.lt_irrefl i), rfl, rfl⟩
  | succ n ih =>
    unfold allocateFrom
    by_cases htakes : takes i = true
    · rw [if_pos htakes]
      obtain ⟨hlow, hhigh, htaken, hstop, halloc, hfreed⟩ := ih (i + 1)
      dsimp only
      refine ⟨by omega, by omega, ?_, fun h => hstop (by omega), ?_, hfreed⟩
      · intro k hle hlt
        obtain rfl | hne := eq_or_ne i k
        · exact htakes
        · exact htaken k (by omega) hlt
      · have hlen : (allocateFrom chunk takes n (i + 1)).1 - i =
          (allocateFrom chunk takes n (i + 1)).1 - (i + 1) + 1 := by omega
        rw [hlen, List.range'_succ, List.map_cons]
        exact congrArg (chunk i :: ·) halloc
    · rw [if_neg htakes]
      refine ⟨le_rfl, Nat.le_add_right _ _, ?_, ?_, ?_, rfl⟩
      · exact fun k hle hlt => absurd hlt (Nat.not_lt.mpr hle)
      · exact fun _ => Bool.eq_false_iff.mpr htakes
      · show [] = (List.range' i (i - i)).map chunk
        rw [Nat.sub_self]
        rfl

theorem cleanUp_calls (chunk : ℕ → Chunk) (i : ℕ) :
    allocated (cleanUp chunk i) = [] ∧ freed (cleanUp chunk i) = List.replicate i (chunk i) := by
  unfold cleanUp
  rw [List.map_const', List.length_range]
  generalize chunk i = c
  induction i with
  | zero => exact ⟨rfl, rfl⟩
  | succ i ih =>
    rw [List.replicate_succ]
    exact ⟨ih.1, congrArg (c :: ·) ih.2⟩

/-- What the calls of an allocation are to do. -/
structure AllocatesWell (start size : ℕ) (chunks : List Chunk) (run : Bool × List Call) :
    Prop where
  few : run.1 = true → (allocated run.2).length ≤ 8
  tiles : run.1 = true → Tiles start size (allocated run.2)
  perm : run.1 = true → (allocated run.2).Perm chunks
  keeps : run.1 = true → freed run.2 = []
  cleans : run.1 = false → (freed run.2).Perm (allocated run.2)

/-- The chunks that make up the range. -/
def chunksOf (enabled : Bool) (exhi : ExHeaderInfo) (vaddr size : ℕ) (g : Rng) : List Chunk :=
  if (needsPaslr enabled exhi).1 then (divide vaddr size g).1 else [⟨vaddr, size⟩]

theorem not_mem_of_tiles {start size : ℕ} {cs : List Chunk} {c : Chunk}
    (h : Tiles start size cs) (hc : c.addr < space ∧ 0 < c.size) {ds : List Chunk}
    (hsub : (ds ++ [c]).Sublist cs) : c ∉ ds := by
  intro hmem
  have hcovers : c.covers c.addr = true := by
    unfold Chunk.covers within
    rw [Nat.add_sub_cancel_left, Nat.mod_self]
    exact decide_eq_true hc.2
  have hle := hsub.countP_le (p := fun d => d.covers c.addr)
  rw [List.countP_append, List.countP_singleton, if_pos hcovers, h c.addr hc.1] at hle
  have hpos : 0 < ds.countP fun d => d.covers c.addr :=
    List.countP_pos_iff.mpr ⟨c, hmem, hcovers⟩
  split_ifs at hle
  · omega
  · omega

/-- The end of the loop decides whether there is anything to clean up. -/
def finish (chunk : ℕ → Chunk) (n : ℕ) (run : ℕ × List Call) : Bool × List Call :=
  if run.1 = n then (true, run.2) else (false, run.2 ++ cleanUp chunk run.1)

theorem finish_well_iff (takes : ℕ → Bool) {start size : ℕ} {cs : List Chunk}
    (hfollow : Follow start 0 cs size)
    (hstart : start < space) (hsize : size ≤ space) (hn : n ≤ 8)
    (hperm : ((List.range n).map chunk).Perm cs) :
    AllocatesWell start size cs (finish chunk n (allocateFrom chunk takes n 0)) ↔
      takes 0 = false ∨ ∀ k < n, takes k = true := by
  obtain ⟨-, hhigh, htaken, hstop, halloc, hfreed⟩ := allocateFrom_spec chunk takes n 0
  generalize allocateFrom chunk takes n 0 = run at *
  obtain ⟨i, calls⟩ := run
  dsimp only at hhigh htaken hstop halloc hfreed
  rw [Nat.zero_add] at hhigh hstop
  rw [Nat.sub_zero, ← List.range_eq_range'] at halloc
  have htiles := (hfollow.tiles hstart hsize).perm hperm
  unfold finish
  dsimp only
  by_cases hi : i = n
  · subst hi
    rw [if_pos rfl]
    refine iff_of_true ⟨fun _ => ?_, fun _ => ?_, fun _ => ?_, fun _ => hfreed, ?_⟩ ?_
    · rw [halloc, List.length_map, List.length_range]
      exact hn
    · rw [halloc]
      exact htiles
    · rw [halloc]
      exact hperm
    · exact fun h => absurd h Bool.true_eq_false.mp
    · exact .inr fun k hk => htaken k (Nat.zero_le k) hk
  · rw [if_neg hi]
    have hlt : i < n := by omega
    obtain ⟨halloc', hfreed'⟩ := cleanUp_calls chunk i
    constructor
    · intro h
      have hclean := h.cleans rfl
      rw [allocated_append, freed_append, halloc, hfreed, halloc', hfreed', List.append_nil,
        List.nil_append] at hclean
      obtain rfl | hpos := Nat.eq_zero_or_pos i
      · exact .inl (hstop hlt)
      · have hmem : chunk i ∈ (List.range i).map chunk := by
          rw [← hclean.mem_iff]
          exact List.mem_replicate.mpr ⟨hpos.ne', rfl⟩
        have hsub : ((List.range i).map chunk ++ [chunk i]).Sublist ((List.range n).map chunk) := by
          have hrange : (List.range i).map chunk ++ [chunk i] = (List.range (i + 1)).map chunk := by
            rw [List.range_succ, List.map_append, List.map_singleton]
          rw [hrange]
          exact (List.range_sublist.mpr hlt).map chunk
        have hc := hfollow.pos (chunk i)
          (hperm.mem_iff.mp (List.mem_map.mpr ⟨i, List.mem_range.mpr hlt, rfl⟩))
        exact absurd hmem (not_mem_of_tiles htiles hc hsub)
    · intro h
      have hzero : i = 0 := by
        by_contra hne
        rcases h with h | h
        · have hfirst := htaken 0 le_rfl (Nat.pos_of_ne_zero hne)
          exact absurd (hfirst.symm.trans h) Bool.true_eq_false.mp
        · exact absurd ((h i hlt).symm.trans (hstop hlt)) Bool.true_eq_false.mp
      subst hzero
      refine ⟨fun h => absurd h Bool.false_ne_true, fun h => absurd h Bool.false_ne_true,
        fun h => absurd h Bool.false_ne_true, fun h => absurd h Bool.false_ne_true, fun _ => ?_⟩
      rw [allocated_append, freed_append, halloc, hfreed, halloc', hfreed']
      exact .nil

/-- The program is randomised. -/
def Randomises (enabled : Bool) (exhi : ExHeaderInfo) : Prop :=
  (needsPaslr enabled exhi).2 ≠ 0 ∧ (needsPaslr enabled exhi).1 = true

/-- An allocation is as it is to be exactly where it is not randomised, or none of its calls fails,
or the first one does. -/
theorem allocateProgramMemory_well_iff (enabled : Bool) (exhi : ExHeaderInfo)
    (vaddr size : UInt32) (g : Rng) (takes : ℕ → Bool) (halign : size.toNat % 2 ^ 12 = 0) :
    AllocatesWell vaddr.toNat size.toNat (chunksOf enabled exhi vaddr.toNat size.toNat g)
        (allocateProgramMemory enabled exhi vaddr size g takes) ↔
      (Randomises enabled exhi → takes 0 = false ∨
        ∀ k < (divide vaddr.toNat size.toNat g).1.length, takes k = true) := by
  have hdivide := divide_follow vaddr.toNat size.toNat g halign
  unfold allocateProgramMemory Randomises chunksOf
  generalize needsPaslr enabled exhi = needs
  obtain ⟨doPaslr, region⟩ := needs
  dsimp only
  by_cases hregion : region = 0
  · rw [if_pos hregion]
    refine iff_of_true ⟨?_, ?_, ?_, ?_, fun _ => .nil⟩ fun h => absurd hregion h.1
    all_goals exact fun h => absurd h Bool.false_ne_true
  rw [if_neg hregion]
  cases doPaslr with
  | false =>
    refine iff_of_true ?_ fun h => absurd h.2 Bool.false_ne_true
    show AllocatesWell _ _ [⟨vaddr.toNat, size.toNat⟩]
      (takes 0, [.alloc ⟨vaddr.toNat, size.toNat⟩ (takes 0)])
    cases takes 0 with
    | true =>
      have hone : 1 ≤ 8 := by decide
      refine ⟨fun _ => hone, fun _ => tiles_singleton _ _, fun _ => .refl _, fun _ => rfl, ?_⟩
      exact fun h => absurd h Bool.true_eq_false.mp
    | false =>
      refine ⟨?_, ?_, ?_, ?_, fun _ => .nil⟩
      all_goals exact fun h => absurd h Bool.false_ne_true
  | true =>
    have hwell := finish_well_iff takes hdivide.1 vaddr.toNat_lt size.toNat_lt.le
      ((ordered_fst vaddr.toNat size.toNat g).trans_le hdivide.2)
      (ordered_perm vaddr.toNat size.toNat g halign)
    rw [ordered_fst] at hwell
    rw [forall_prop_of_true ⟨hregion, rfl⟩]
    exact hwell

/-- A program of the application region that needs the 11.2 kernel. -/
def application : ExHeaderInfo := ⟨[0xFF000100, 0xFC000239], 0, 0x0004001000021900⟩

def stillRng : Rng := ⟨0, fun _ => 0⟩

theorem allocateProgramMemory_well_application :
    AllocatesWell 0x100000 0x30000 (chunksOf true application 0x100000 0x30000 stillRng)
      (allocateProgramMemory true application 0x100000 0x30000 stillRng fun _ => true) :=
  (allocateProgramMemory_well_iff true application 0x100000 0x30000 stillRng (fun _ => true)
    (by decide)).mpr fun _ => .inr fun _ _ => rfl

/-- When the second chunk is refused, it is freed in place of the first one. -/
theorem refused_chunk_is_freed :
    allocateProgramMemory true application 0x100000 0x30000 stillRng (fun k => k ≠ 1) =
      (false, [.alloc ⟨0x110000, 0x10000⟩ true, .alloc ⟨0x120000, 0x10000⟩ false,
        .free ⟨0x120000, 0x10000⟩]) ∧
    ¬AllocatesWell 0x100000 0x30000 (chunksOf true application 0x100000 0x30000 stillRng)
      (allocateProgramMemory true application 0x100000 0x30000 stillRng fun k => k ≠ 1) := by
  have hrun : allocateProgramMemory true application 0x100000 0x30000 stillRng (fun k => k ≠ 1) =
      (false, [.alloc ⟨0x110000, 0x10000⟩ true, .alloc ⟨0x120000, 0x10000⟩ false,
        .free ⟨0x120000, 0x10000⟩]) := by
    decide +kernel
  refine ⟨hrun, fun h => ?_⟩
  rw [hrun] at h
  exact absurd (h.cleans rfl) (by decide)

end Presence3DS.Loader.Paslr
