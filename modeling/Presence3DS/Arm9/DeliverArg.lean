import Presence3DS.Lib.RawMemory

/-! The parameters that are handed over to what is launched next (`deliver_arg.c` of the arm9): what
is written to memory, and what the next boot accepts of it. -/

namespace Presence3DS.Arm9
open RawMemory

/-! ## Checksums -/

def crc16Lut : Array UInt16 := #[
  0x0000, 0xC0C1, 0xC181, 0x0140, 0xC301, 0x03C0, 0x0280, 0xC241,
  0xC601, 0x06C0, 0x0780, 0xC741, 0x0500, 0xC5C1, 0xC481, 0x0440,
  0xCC01, 0x0CC0, 0x0D80, 0xCD41, 0x0F00, 0xCFC1, 0xCE81, 0x0E40,
  0x0A00, 0xCAC1, 0xCB81, 0x0B40, 0xC901, 0x09C0, 0x0880, 0xC841,
  0xD801, 0x18C0, 0x1980, 0xD941, 0x1B00, 0xDBC1, 0xDA81, 0x1A40,
  0x1E00, 0xDEC1, 0xDF81, 0x1F40, 0xDD01, 0x1DC0, 0x1C80, 0xDC41,
  0x1400, 0xD4C1, 0xD581, 0x1540, 0xD701, 0x17C0, 0x1680, 0xD641,
  0xD201, 0x12C0, 0x1380, 0xD341, 0x1100, 0xD1C1, 0xD081, 0x1040,
  0xF001, 0x30C0, 0x3180, 0xF141, 0x3300, 0xF3C1, 0xF281, 0x3240,
  0x3600, 0xF6C1, 0xF781, 0x3740, 0xF501, 0x35C0, 0x3480, 0xF441,
  0x3C00, 0xFCC1, 0xFD81, 0x3D40, 0xFF01, 0x3FC0, 0x3E80, 0xFE41,
  0xFA01, 0x3AC0, 0x3B80, 0xFB41, 0x3900, 0xF9C1, 0xF881, 0x3840,
  0x2800, 0xE8C1, 0xE981, 0x2940, 0xEB01, 0x2BC0, 0x2A80, 0xEA41,
  0xEE01, 0x2EC0, 0x2F80, 0xEF41, 0x2D00, 0xEDC1, 0xEC81, 0x2C40,
  0xE401, 0x24C0, 0x2580, 0xE541, 0x2700, 0xE7C1, 0xE681, 0x2640,
  0x2200, 0xE2C1, 0xE381, 0x2340, 0xE101, 0x21C0, 0x2080, 0xE041,
  0xA001, 0x60C0, 0x6180, 0xA141, 0x6300, 0xA3C1, 0xA281, 0x6240,
  0x6600, 0xA6C1, 0xA781, 0x6740, 0xA501, 0x65C0, 0x6480, 0xA441,
  0x6C00, 0xACC1, 0xAD81, 0x6D40, 0xAF01, 0x6FC0, 0x6E80, 0xAE41,
  0xAA01, 0x6AC0, 0x6B80, 0xAB41, 0x6900, 0xA9C1, 0xA881, 0x6840,
  0x7800, 0xB8C1, 0xB981, 0x7940, 0xBB01, 0x7BC0, 0x7A80, 0xBA41,
  0xBE01, 0x7EC0, 0x7F80, 0xBF41, 0x7D00, 0xBDC1, 0xBC81, 0x7C40,
  0xB401, 0x74C0, 0x7580, 0xB541, 0x7700, 0xB7C1, 0xB681, 0x7640,
  0x7200, 0xB2C1, 0xB381, 0x7340, 0xB101, 0x71C0, 0x7080, 0xB041,
  0x5000, 0x90C1, 0x9181, 0x5140, 0x9301, 0x53C0, 0x5280, 0x9241,
  0x9601, 0x56C0, 0x5780, 0x9741, 0x5500, 0x95C1, 0x9481, 0x5440,
  0x9C01, 0x5CC0, 0x5D80, 0x9D41, 0x5F00, 0x9FC1, 0x9E81, 0x5E40,
  0x5A00, 0x9AC1, 0x9B81, 0x5B40, 0x9901, 0x59C0, 0x5880, 0x9841,
  0x8801, 0x48C0, 0x4980, 0x8941, 0x4B00, 0x8BC1, 0x8A81, 0x4A40,
  0x4E00, 0x8EC1, 0x8F81, 0x4F40, 0x8D01, 0x4DC0, 0x4C80, 0x8C41,
  0x4400, 0x84C1, 0x8581, 0x4540, 0x8701, 0x47C0, 0x4680, 0x8641,
  0x8201, 0x42C0, 0x4380, 0x8341, 0x4100, 0x81C1, 0x8081, 0x4040]

/-- CRC-16/MODBUS -/
def crc16 (data : List UInt8) (initialValue : UInt16) : UInt16 :=
  data.foldl (fun r byte =>
    (r >>> 8) ^^^ crc16Lut.getD ((r ^^^ byte.toUInt16) &&& 0xFF).toNat 0) initialValue

def crc32Lut : Array UInt32 := #[
  0x00000000, 0x77073096, 0xEE0E612C, 0x990951BA, 0x076DC419, 0x706AF48F, 0xE963A535, 0x9E6495A3,
  0x0EDB8832, 0x79DCB8A4, 0xE0D5E91E, 0x97D2D988, 0x09B64C2B, 0x7EB17CBD, 0xE7B82D07, 0x90BF1D91,
  0x1DB71064, 0x6AB020F2, 0xF3B97148, 0x84BE41DE, 0x1ADAD47D, 0x6DDDE4EB, 0xF4D4B551, 0x83D385C7,
  0x136C9856, 0x646BA8C0, 0xFD62F97A, 0x8A65C9EC, 0x14015C4F, 0x63066CD9, 0xFA0F3D63, 0x8D080DF5,
  0x3B6E20C8, 0x4C69105E, 0xD56041E4, 0xA2677172, 0x3C03E4D1, 0x4B04D447, 0xD20D85FD, 0xA50AB56B,
  0x35B5A8FA, 0x42B2986C, 0xDBBBC9D6, 0xACBCF940, 0x32D86CE3, 0x45DF5C75, 0xDCD60DCF, 0xABD13D59,
  0x26D930AC, 0x51DE003A, 0xC8D75180, 0xBFD06116, 0x21B4F4B5, 0x56B3C423, 0xCFBA9599, 0xB8BDA50F,
  0x2802B89E, 0x5F058808, 0xC60CD9B2, 0xB10BE924, 0x2F6F7C87, 0x58684C11, 0xC1611DAB, 0xB6662D3D,
  0x76DC4190, 0x01DB7106, 0x98D220BC, 0xEFD5102A, 0x71B18589, 0x06B6B51F, 0x9FBFE4A5, 0xE8B8D433,
  0x7807C9A2, 0x0F00F934, 0x9609A88E, 0xE10E9818, 0x7F6A0DBB, 0x086D3D2D, 0x91646C97, 0xE6635C01,
  0x6B6B51F4, 0x1C6C6162, 0x856530D8, 0xF262004E, 0x6C0695ED, 0x1B01A57B, 0x8208F4C1, 0xF50FC457,
  0x65B0D9C6, 0x12B7E950, 0x8BBEB8EA, 0xFCB9887C, 0x62DD1DDF, 0x15DA2D49, 0x8CD37CF3, 0xFBD44C65,
  0x4DB26158, 0x3AB551CE, 0xA3BC0074, 0xD4BB30E2, 0x4ADFA541, 0x3DD895D7, 0xA4D1C46D, 0xD3D6F4FB,
  0x4369E96A, 0x346ED9FC, 0xAD678846, 0xDA60B8D0, 0x44042D73, 0x33031DE5, 0xAA0A4C5F, 0xDD0D7CC9,
  0x5005713C, 0x270241AA, 0xBE0B1010, 0xC90C2086, 0x5768B525, 0x206F85B3, 0xB966D409, 0xCE61E49F,
  0x5EDEF90E, 0x29D9C998, 0xB0D09822, 0xC7D7A8B4, 0x59B33D17, 0x2EB40D81, 0xB7BD5C3B, 0xC0BA6CAD,
  0xEDB88320, 0x9ABFB3B6, 0x03B6E20C, 0x74B1D29A, 0xEAD54739, 0x9DD277AF, 0x04DB2615, 0x73DC1683,
  0xE3630B12, 0x94643B84, 0x0D6D6A3E, 0x7A6A5AA8, 0xE40ECF0B, 0x9309FF9D, 0x0A00AE27, 0x7D079EB1,
  0xF00F9344, 0x8708A3D2, 0x1E01F268, 0x6906C2FE, 0xF762575D, 0x806567CB, 0x196C3671, 0x6E6B06E7,
  0xFED41B76, 0x89D32BE0, 0x10DA7A5A, 0x67DD4ACC, 0xF9B9DF6F, 0x8EBEEFF9, 0x17B7BE43, 0x60B08ED5,
  0xD6D6A3E8, 0xA1D1937E, 0x38D8C2C4, 0x4FDFF252, 0xD1BB67F1, 0xA6BC5767, 0x3FB506DD, 0x48B2364B,
  0xD80D2BDA, 0xAF0A1B4C, 0x36034AF6, 0x41047A60, 0xDF60EFC3, 0xA867DF55, 0x316E8EEF, 0x4669BE79,
  0xCB61B38C, 0xBC66831A, 0x256FD2A0, 0x5268E236, 0xCC0C7795, 0xBB0B4703, 0x220216B9, 0x5505262F,
  0xC5BA3BBE, 0xB2BD0B28, 0x2BB45A92, 0x5CB36A04, 0xC2D7FFA7, 0xB5D0CF31, 0x2CD99E8B, 0x5BDEAE1D,
  0x9B64C2B0, 0xEC63F226, 0x756AA39C, 0x026D930A, 0x9C0906A9, 0xEB0E363F, 0x72076785, 0x05005713,
  0x95BF4A82, 0xE2B87A14, 0x7BB12BAE, 0x0CB61B38, 0x92D28E9B, 0xE5D5BE0D, 0x7CDCEFB7, 0x0BDBDF21,
  0x86D3D2D4, 0xF1D4E242, 0x68DDB3F8, 0x1FDA836E, 0x81BE16CD, 0xF6B9265B, 0x6FB077E1, 0x18B74777,
  0x88085AE6, 0xFF0F6A70, 0x66063BCA, 0x11010B5C, 0x8F659EFF, 0xF862AE69, 0x616BFFD3, 0x166CCF45,
  0xA00AE278, 0xD70DD2EE, 0x4E048354, 0x3903B3C2, 0xA7672661, 0xD06016F7, 0x4969474D, 0x3E6E77DB,
  0xAED16A4A, 0xD9D65ADC, 0x40DF0B66, 0x37D83BF0, 0xA9BCAE53, 0xDEBB9EC5, 0x47B2CF7F, 0x30B5FFE9,
  0xBDBDF21C, 0xCABAC28A, 0x53B39330, 0x24B4A3A6, 0xBAD03605, 0xCDD70693, 0x54DE5729, 0x23D967BF,
  0xB3667A2E, 0xC4614AB8, 0x5D681B02, 0x2A6F2B94, 0xB40BBE37, 0xC30C8EA1, 0x5A05DF1B, 0x2D02EF8D]

def crc32 (data : List UInt8) (initialValue : UInt32) : UInt32 :=
  ~~~ data.foldl (fun r byte =>
    (r >>> 8) ^^^ crc32Lut.getD ((r ^^^ byte.toUInt32) &&& 0xFF).toNat 0) initialValue

/-! ## Memory -/

/-- By the offsets in it. -/
abbrev Area := RawMemory.Memory

def read16 (m : Area) (a : ℕ) : UInt16 := UInt16.ofNat (leValue (read m a 2))

def read32 (m : Area) (a : ℕ) : UInt32 := UInt32.ofNat (leValue (read m a 4))

def write16 (m : Area) (a : ℕ) (v : UInt16) : Area := write m a (leBytes 2 v.toNat)

def write32 (m : Area) (a : ℕ) (v : UInt32) : Area := write m a (leBytes 4 v.toNat)

def write64 (m : Area) (a : ℕ) (v : UInt64) : Area := write m a (leBytes 8 v.toNat)

def zeros (m : Area) (a n : ℕ) : Area := write m a (List.replicate n 0)

/-- `dst16[i] = src16[4 * i]` -/
def copyFromLegacyModeFcram (dst src : Area) (size : ℕ) : Area :=
  (List.range (size / 2)).foldl (fun dst i => write dst (2 * i) (read src (8 * i) 2)) dst

/-- `dst16[4 * i] = src16[i]` -/
def copyToLegacyModeFcram (dst src : Area) (size : ℕ) : Area :=
  (List.range (size / 2)).foldl (fun dst i => write dst (8 * i) (read src (2 * i) 2)) dst

/-! ## The parameters -/

/-- The static variables of `loadDeliverArg`, and what stays over a reboot: the memory from
`0x20000000` on, and `CFG_BOOTENV`. -/
structure DeliverState where
  deliverArg : Area
  deliverArgLoaded : Bool
  fcram : Area
  bootenv : UInt32

namespace DeliverState

def tlncMagic : List UInt8 := [0x54, 0x4C, 0x4E, 0x43]

def expectedCrc (deliverArg : Area) : UInt32 :=
  crc32 (read (write32 deliverArg 0x43C 0) 0x400 0x140) 0xFFFFFFFF

/-- The block passes the validation in CTR mode. -/
def ValidCtr (deliverArg : Area) : Prop :=
  read32 deliverArg 0x438 = 0xFFFF ∧ read32 deliverArg 0x43C = expectedCrc deliverArg

instance (deliverArg : Area) : Decidable (ValidCtr deliverArg) :=
  inferInstanceAs (Decidable (_ ∧ _))

/-- The TLNC block passes the validation in legacy modes. -/
def ValidTlnc (deliverArg : Area) : Prop :=
  let crcLen := (deliverArg 0x305).toNat
  read deliverArg 0x300 4 = tlncMagic ∧ 8 + crcLen ≤ 0x100 ∧
    read16 deliverArg 0x306 = crc16 (read deliverArg 0x308 crcLen) 0xFFFF

instance (deliverArg : Area) : Decidable (ValidTlnc deliverArg) :=
  inferInstanceAs (Decidable (_ ∧ _))

/-- What the first call makes of the memory. -/
def bootDeliverArg (bootenv : UInt32) (deliverArg fcram : Area) : Area :=
  -- true coldboot
  if bootenv &&& 1 = 0 then zeros deliverArg 0 0x1000
  else if bootenv >>> 1 = 0 then
    let deliverArg := write deliverArg 0 (read fcram 0 0x1000)
    if ValidCtr deliverArg then deliverArg else zeros deliverArg 0 0x1000
  else
    let deliverArg := copyFromLegacyModeFcram deliverArg fcram 0x400
    let deliverArg := if ValidTlnc deliverArg then deliverArg else zeros deliverArg 0x300 0x100
    zeros deliverArg 0x400 0xC00

def loadDeliverArg (s : DeliverState) : DeliverState :=
  if s.deliverArgLoaded then s
  else
    { s with
      deliverArg := bootDeliverArg s.bootenv s.deliverArg s.fcram
      deliverArgLoaded := true }

/-- A true coldboot becomes a reboot in CTR mode. -/
def nextBootenv (s : DeliverState) : UInt32 := if s.bootenv &&& 1 = 0 then 1 else s.bootenv

def signCtr (deliverArg : Area) : Area :=
  let deliverArg := write32 (write32 deliverArg 0x438 0xFFFF) 0x43C 0
  write32 deliverArg 0x43C (crc32 (read deliverArg 0x400 0x140) 0xFFFFFFFF)

def commitDeliverArg (s : DeliverState) : DeliverState :=
  let s := s.loadDeliverArg
  if s.nextBootenv >>> 1 = 0 then
    let deliverArg := signCtr s.deliverArg
    { s with
      deliverArg := deliverArg
      fcram := write s.fcram 0 (read deliverArg 0 0x1000)
      bootenv := s.nextBootenv }
  else
    { s with
      fcram := copyToLegacyModeFcram s.fcram s.deliverArg 0x400
      bootenv := s.nextBootenv }

def hasValidTlncAutobootParams (s : DeliverState) : Bool :=
  let deliverArg := s.loadDeliverArg.deliverArg
  read deliverArg 0x300 4 = tlncMagic ∧ read16 deliverArg 0x318 &&& 1 ≠ 0

/-- The registers that are cleared on a New 3DS are not part of the state. -/
def configureHomebrewAutobootTwl (s : DeliverState) (autobootTwlTitleId : UInt64) : DeliverState :=
  let deliverArg := zeros s.deliverArg 0 0x300
  let deliverArg := zeros deliverArg 0x300 0x100
  let deliverArg := write deliverArg 0x300 tlncMagic
  let deliverArg := write deliverArg 0x304 [1]
  let deliverArg := write deliverArg 0x305 [0x18]
  let deliverArg := write64 deliverArg 0x308 0
  let deliverArg := write64 deliverArg 0x310 autobootTwlTitleId
  let deliverArg := write16 deliverArg 0x318
    (((1 : UInt16) <<< 4) ||| ((3 : UInt16) <<< 1) ||| ((1 : UInt16) <<< 0))
  let deliverArg := write16 deliverArg 0x306 (crc16 (read deliverArg 0x308 0x18) 0xFFFF)
  { s with deliverArg := deliverArg, bootenv := 3 }

/-- The static variables start anew. -/
def reboot (s : DeliverState) : DeliverState :=
  { s with deliverArg := fun _ => 0, deliverArgLoaded := false }

/-- The next boot, with whatever is in the memory then. -/
def bootsWith (s : DeliverState) (fcram : Area) : DeliverState :=
  { s with fcram := fcram }.reboot.loadDeliverArg

/-! ## Copies -/

variable {m m' dst src : Area} {x : ℕ}

theorem copyFrom_apply (dst src : Area) {n : ℕ} (hx : x < 2 * n) :
    copyFromLegacyModeFcram dst src (2 * n) x = src (8 * (x / 2) + x % 2) := by
  unfold copyFromLegacyModeFcram
  refine foldl_write_read (f := fun x => src (8 * (x / 2) + x % 2)) (fun i _ j hj => ?_)
    (.inr ⟨x / 2, ?_, ?_, ?_⟩)
  · have hdiv : (2 * i + j) / 2 = i := by omega
    have hmod : (2 * i + j) % 2 = j := by omega
    show src (8 * i + j) = src (8 * ((2 * i + j) / 2) + (2 * i + j) % 2)
    rw [hdiv, hmod]
  · rw [List.mem_range]
    omega
  · omega
  · omega

theorem copyTo_apply (dst src : Area) {n : ℕ} (hx : x < 2 * n) :
    copyToLegacyModeFcram dst src (2 * n) (8 * (x / 2) + x % 2) = src x := by
  have hplace : (8 * (x / 2) + x % 2) / 8 = x / 2 ∧ (8 * (x / 2) + x % 2) % 8 = x % 2 := by omega
  have hcopy : copyToLegacyModeFcram dst src (2 * n) (8 * (x / 2) + x % 2) =
      src (2 * ((8 * (x / 2) + x % 2) / 8) + (8 * (x / 2) + x % 2) % 8) := by
    unfold copyToLegacyModeFcram
    refine foldl_write_read (f := fun y => src (2 * (y / 8) + y % 8)) (fun i _ j hj => ?_)
      (.inr ⟨x / 2, ?_, ?_, ?_⟩)
    · have hdiv : (8 * i + j) / 8 = i := by omega
      have hmod : (8 * i + j) % 8 = j := by omega
      show src (2 * i + j) = src (2 * ((8 * i + j) / 8) + (8 * i + j) % 8)
      rw [hdiv, hmod]
    · rw [List.mem_range]
      omega
    · omega
    · omega
  rw [hcopy, hplace.1, hplace.2, Nat.div_add_mod]

theorem copyFrom_copyTo (dst dst' src : Area) (hx : x < 0x400) :
    copyFromLegacyModeFcram dst (copyToLegacyModeFcram dst' src 0x400) 0x400 x = src x := by
  rw [show 0x400 = 2 * 0x200 from rfl] at hx ⊢
  rw [copyFrom_apply _ _ hx, copyTo_apply _ _ hx]

theorem zeros_inside {a n : ℕ} (h : a ≤ x ∧ x < a + n) : zeros m a n x = 0 := by
  obtain ⟨i, rfl⟩ := Nat.exists_eq_add_of_le h.1
  have hi : i < (List.replicate n (0 : UInt8)).length := by
    rw [List.length_replicate]
    omega
  unfold zeros
  rw [write_inside hi, List.getElem_replicate]

theorem zeros_outside {a n : ℕ} (h : x < a ∨ a + n ≤ x) : zeros m a n x = m x := by
  unfold zeros
  rw [write_outside]
  rwa [List.length_replicate]

theorem write_read_apply {n : ℕ} (hx : x < n) : write dst 0 (read src 0 n) x = src x := by
  have hlt : x < (read src 0 n).length := by rwa [length_read]
  have hinside := write_inside (m := dst) (a := 0) hlt
  rwa [getElem_read, Nat.zero_add] at hinside

/-! ## Validation -/

theorem validCtr_congr (h : ∀ x, 0x400 ≤ x → x < 0x540 → m' x = m x) :
    ValidCtr m' ↔ ValidCtr m := by
  have hread : ∀ a, 0x400 ≤ a → a + 4 ≤ 0x540 → read32 m' a = read32 m a := by
    intro a hmin hmax
    unfold read32
    rw [read_congr fun i hi => h (a + i) (by omega) (by omega)]
  have hcrc : expectedCrc m' = expectedCrc m := by
    unfold expectedCrc
    rw [read_congr fun i hi => ?_]
    unfold write32
    by_cases hfield : 0x3C ≤ i ∧ i < 0x40
    · obtain ⟨j, rfl⟩ := Nat.exists_eq_add_of_le hfield.1
      rw [← Nat.add_assoc]
      rw [write_inside (by rw [length_leBytes]; omega), write_inside]
    · rw [write_outside (by rw [length_leBytes]; omega),
        write_outside (by rw [length_leBytes]; omega)]
      exact h _ (by omega) (by omega)
  unfold ValidCtr
  rw [hread 0x438 (by decide) (by decide), hread 0x43C (by decide) (by decide), hcrc]

theorem validTlnc_congr (h : ∀ x, 0x300 ≤ x → x < 0x400 → m' x = m x) :
    ValidTlnc m' ↔ ValidTlnc m := by
  have hread : ∀ a n, 0x300 ≤ a → a + n ≤ 0x400 → read m' a n = read m a n :=
    fun a n hmin hmax => read_congr fun i hi => h (a + i) (by omega) (by omega)
  unfold ValidTlnc read16
  dsimp only
  rw [h 0x305 (by decide) (by decide), hread 0x300 4 (by decide) (by decide),
    hread 0x306 2 (by decide) (by decide)]
  by_cases hlen : 8 + (m 0x305).toNat ≤ 0x100
  · rw [hread 0x308 _ (by decide) (by omega)]
  · exact iff_of_false (fun hvalid => hlen hvalid.2.1) fun hvalid => hlen hvalid.2.1

theorem read32_write32 (m : Area) (a : ℕ) (v : UInt32) : read32 (write32 m a v) a = v := by
  unfold read32 write32
  rw [read_leBytes, Nat.mod_eq_of_lt (show v.toNat < 256 ^ 4 from v.toNat_lt), UInt32.ofNat_toNat]

theorem read16_write16 (m : Area) (a : ℕ) (v : UInt16) : read16 (write16 m a v) a = v := by
  unfold read16 write16
  rw [read_leBytes, Nat.mod_eq_of_lt (show v.toNat < 256 ^ 2 from v.toNat_lt), UInt16.ofNat_toNat]

theorem validCtr_signCtr (deliverArg : Area) : ValidCtr (signCtr deliverArg) := by
  unfold signCtr
  extract_lets m
  have hclear : ∀ crc, write32 (write32 m 0x43C crc) 0x43C 0 = m := by
    intro crc
    show write (write (write _ _ _) _ _) _ _ = write _ _ _
    rw [write_write (by rw [length_leBytes, length_leBytes]), write_write rfl]
  constructor
  · unfold read32
    show UInt32.ofNat (leValue (read (write m _ _) 0x438 4)) = _
    rw [read_write_of_disjoint (by omega)]
    show UInt32.ofNat (leValue (read (write (write32 deliverArg 0x438 0xFFFF) _ (leBytes 4 0))
      0x438 4)) = _
    rw [read_write_of_disjoint (by omega)]
    exact read32_write32 _ _ _
  · rw [read32_write32]
    unfold expectedCrc
    rw [hclear]

theorem eqOutside_signCtr (deliverArg : Area) :
    EqOutside (signCtr deliverArg) deliverArg 0x438 0x440 := by
  have hfield : ∀ (m : Area) (a : ℕ) (v : UInt32), 0x438 ≤ a → a + 4 ≤ 0x440 →
      EqOutside (write32 m a v) m 0x438 0x440 :=
    fun m a v hmin hmax => eqOutside_write hmin (by rwa [length_leBytes])
  exact ((hfield _ 0x43C _ (by decide) (by decide)).trans
    (hfield _ 0x43C 0 (by decide) (by decide))).trans (hfield _ 0x438 _ (by decide) (by decide))

/-! ## The next boot -/

variable {s : DeliverState}

theorem boot_ctr {bootenv : UInt32} {deliverArg fcram : Area} (hwarm : bootenv &&& 1 ≠ 0)
    (hmode : bootenv >>> 1 = 0) (hx : x < 0x1000) :
    bootDeliverArg bootenv deliverArg fcram x = if ValidCtr fcram then fcram x else 0 := by
  have hvalid : ValidCtr (write deliverArg 0 (read fcram 0 0x1000)) ↔ ValidCtr fcram :=
    validCtr_congr fun x _ hx => write_read_apply (hx.trans (by decide))
  unfold bootDeliverArg
  rw [if_neg hwarm, if_pos hmode]
  by_cases h : ValidCtr fcram
  · rw [if_pos (hvalid.mpr h), if_pos h, write_read_apply hx]
  · rw [if_neg (h ∘ hvalid.mp), if_neg h, zeros_inside (by omega)]

theorem boot_legacy {bootenv : UInt32} {deliverArg fcram : Area} (hwarm : bootenv &&& 1 ≠ 0)
    (hmode : bootenv >>> 1 ≠ 0) (hx : x < 0x400) :
    bootDeliverArg bootenv deliverArg fcram x =
      if x < 0x300 ∨ ValidTlnc (copyFromLegacyModeFcram deliverArg fcram 0x400) then
        copyFromLegacyModeFcram deliverArg fcram 0x400 x
      else 0 := by
  unfold bootDeliverArg
  rw [if_neg hwarm, if_neg hmode]
  rw [zeros_outside (.inl hx)]
  by_cases hvalid : ValidTlnc (copyFromLegacyModeFcram deliverArg fcram 0x400)
  · rw [if_pos hvalid, if_pos (.inr hvalid)]
  · rw [if_neg hvalid]
    by_cases hlow : x < 0x300
    · rw [if_pos (.inl hlow), zeros_outside (.inl hlow)]
    · rw [if_neg (not_or.mpr ⟨hlow, hvalid⟩), zeros_inside (by omega)]

theorem load_reboot (s : DeliverState) : s.reboot.loadDeliverArg.deliverArg =
    bootDeliverArg s.bootenv (fun _ => 0) s.fcram := rfl

theorem load_nextBootenv (s : DeliverState) : s.loadDeliverArg.nextBootenv = s.nextBootenv := by
  unfold loadDeliverArg
  split_ifs <;> rfl

theorem commit_bootenv (s : DeliverState) : s.commitDeliverArg.bootenv = s.nextBootenv := by
  rw [← load_nextBootenv]
  by_cases hmode : s.loadDeliverArg.nextBootenv >>> 1 = 0
  · exact congrArg bootenv (if_pos hmode)
  · exact congrArg bootenv (if_neg hmode)

theorem nextBootenv_warm (s : DeliverState) : s.nextBootenv &&& 1 ≠ 0 := by
  unfold nextBootenv
  split_ifs with hcold
  · decide
  · exact hcold

theorem commit_ctr (hmode : s.nextBootenv >>> 1 = 0) :
    s.commitDeliverArg.deliverArg = signCtr s.loadDeliverArg.deliverArg ∧
      ∀ x < 0x1000, s.commitDeliverArg.fcram x = s.commitDeliverArg.deliverArg x := by
  rw [← load_nextBootenv] at hmode
  unfold commitDeliverArg
  dsimp only
  rw [if_pos hmode]
  dsimp only
  exact ⟨rfl, fun x hx => write_read_apply hx⟩

theorem commit_legacy (hmode : s.nextBootenv >>> 1 ≠ 0) :
    s.commitDeliverArg.deliverArg = s.loadDeliverArg.deliverArg ∧
      s.commitDeliverArg.fcram =
        copyToLegacyModeFcram s.loadDeliverArg.fcram s.loadDeliverArg.deliverArg 0x400 := by
  rw [← load_nextBootenv] at hmode
  unfold commitDeliverArg
  dsimp only
  rw [if_neg hmode]
  dsimp only
  exact ⟨rfl, rfl⟩

/-! ## The autoboot -/

theorem twl_tlnc (s : DeliverState) (autobootTwlTitleId : UInt64) :
    ValidTlnc (s.configureHomebrewAutobootTwl autobootTwlTitleId).deliverArg ∧
      read16 (s.configureHomebrewAutobootTwl autobootTwlTitleId).deliverArg 0x318 &&& 1 ≠ 0 := by
  unfold configureHomebrewAutobootTwl
  extract_lets m₀ m₁ m₂ m₃ m₄ m₅ m₆ m₇ m₈
  have hlast : ∀ a n, a + n ≤ 0x306 ∨ 0x308 ≤ a → read m₈ a n = read m₇ a n := by
    intro a n h
    show read (write m₇ 0x306 (leBytes 2 _)) a n = _
    rw [read_write_of_disjoint (by rw [length_leBytes]; omega)]
  -- what is in front of the fields is not written to with them
  have hfront : ∀ a n, a + n ≤ 0x306 → read m₈ a n = read m₄ a n := by
    intro a n h
    rw [hlast a n (.inl h)]
    show read (write (write (write m₄ 0x308 _) 0x310 _) 0x318 _) a n = _
    rw [read_write_of_disjoint (.inl (by omega)), read_write_of_disjoint (.inl (by omega)),
      read_write_of_disjoint (.inl (by omega))]
  have hmagic : read m₈ 0x300 4 = tlncMagic := by
    rw [hfront 0x300 4 (by decide)]
    show read (write (write (write m₁ 0x300 tlncMagic) 0x304 _) 0x305 _) 0x300 4 = _
    rw [read_write_of_disjoint (.inl (by decide)), read_write_of_disjoint (.inl (by decide))]
    exact read_write m₁ 0x300 tlncMagic
  have hlen : m₈ 0x305 = 0x18 := by
    have hread : read m₈ 0x305 1 = [0x18] :=
      (hfront 0x305 1 (by decide)).trans (read_write m₃ 0x305 [0x18])
    exact List.head_eq_of_cons_eq hread
  have hflags : read16 m₈ 0x318 = 0x17 := by
    unfold read16
    rw [hlast 0x318 2 (.inr (by decide))]
    show UInt16.ofNat (leValue (read (write m₆ 0x318 (leBytes 2 _)) 0x318 2)) = _
    rw [read_leBytes]
    rfl
  have hcrc : read16 m₈ 0x306 = crc16 (read m₈ 0x308 0x18) 0xFFFF := by
    rw [hlast 0x308 0x18 (.inr (by decide))]
    exact read16_write16 m₇ 0x306 _
  refine ⟨⟨hmagic, ?_, ?_⟩, ?_⟩
  · show 8 + (m₈ 0x305).toNat ≤ 0x100
    rw [hlen]
    decide
  · show read16 m₈ 0x306 = crc16 (read m₈ 0x308 (m₈ 0x305).toNat) 0xFFFF
    rw [hlen]
    exact hcrc
  · show read16 m₈ 0x318 &&& 1 ≠ 0
    rw [hflags]
    decide

theorem hasValid_of_eq {m : Area}
    (h : ∀ x, 0x300 ≤ x → x < 0x400 → s.loadDeliverArg.deliverArg x = m x)
    (hmagic : read m 0x300 4 = tlncMagic) (hflag : read16 m 0x318 &&& 1 ≠ 0) :
    s.hasValidTlncAutobootParams = true := by
  have hread : ∀ a n, 0x300 ≤ a → a + n ≤ 0x400 →
      read s.loadDeliverArg.deliverArg a n = read m a n :=
    fun a n hmin hmax => read_congr fun i hi => h (a + i) (by omega) (by omega)
  unfold hasValidTlncAutobootParams
  refine decide_eq_true ⟨(hread 0x300 4 (by decide) (by decide)).trans hmagic, ?_⟩
  unfold read16 at hflag ⊢
  rwa [hread 0x318 2 (by decide) (by decide)]

/-! ## The hand-over -/

/-- What the next boot makes of what is committed. -/
def handedOver (s : DeliverState) : Area := s.commitDeliverArg.reboot.loadDeliverArg.deliverArg

theorem handedOver_ctr (hmode : s.nextBootenv >>> 1 = 0) {x : ℕ} (hx : x < 0x1000) :
    s.handedOver x = s.commitDeliverArg.deliverArg x := by
  obtain ⟨hdeliverArg, hfcram⟩ := commit_ctr hmode
  have hvalid : ValidCtr s.commitDeliverArg.deliverArg := hdeliverArg ▸ validCtr_signCtr _
  have hfcramValid : ValidCtr s.commitDeliverArg.fcram :=
    (validCtr_congr fun x _ hx => hfcram x (hx.trans (by decide))).mpr hvalid
  unfold handedOver
  rw [load_reboot, commit_bootenv, boot_ctr s.nextBootenv_warm hmode hx, if_pos hfcramValid]
  exact hfcram x hx

theorem handedOver_legacy (hmode : s.nextBootenv >>> 1 ≠ 0) {x : ℕ} (hx : x < 0x400) :
    s.handedOver x =
      if x < 0x300 ∨ ValidTlnc s.commitDeliverArg.deliverArg then s.commitDeliverArg.deliverArg x
      else 0 := by
  obtain ⟨hsame, hfcram⟩ := commit_legacy hmode
  have hcopy : ∀ x < 0x400, copyFromLegacyModeFcram (fun _ => 0) s.commitDeliverArg.fcram 0x400 x =
      s.commitDeliverArg.deliverArg x := by
    intro x hx
    rw [hfcram, hsame]
    exact copyFrom_copyTo _ _ _ hx
  have hvalid : ValidTlnc (copyFromLegacyModeFcram (fun _ => 0) s.commitDeliverArg.fcram 0x400) ↔
      ValidTlnc s.commitDeliverArg.deliverArg := validTlnc_congr fun x _ hx => hcopy x hx
  unfold handedOver
  rw [load_reboot, commit_bootenv, boot_legacy s.nextBootenv_warm hmode hx, hcopy x hx]
  simp only [hvalid]

theorem boot_ctr_accepted {bootenv : UInt32} {deliverArg fcram : Area} (hwarm : bootenv &&& 1 ≠ 0)
    (hmode : bootenv >>> 1 = 0)
    (haccepted : ∃ x < 0x1000, bootDeliverArg bootenv deliverArg fcram x ≠ 0) :
    ValidCtr (bootDeliverArg bootenv deliverArg fcram) ∧
      ∀ x < 0x1000, bootDeliverArg bootenv deliverArg fcram x = fcram x := by
  obtain ⟨x, hx, hne⟩ := haccepted
  have hvalid : ValidCtr fcram := by
    by_contra hinvalid
    rw [boot_ctr hwarm hmode hx, if_neg hinvalid] at hne
    exact hne rfl
  have hsame : ∀ x < 0x1000, bootDeliverArg bootenv deliverArg fcram x = fcram x := by
    intro x hx
    rw [boot_ctr hwarm hmode hx, if_pos hvalid]
  exact ⟨(validCtr_congr fun x _ hx => hsame x (hx.trans (by decide))).mpr hvalid, hsame⟩

theorem boot_legacy_accepted {bootenv : UInt32} {deliverArg fcram : Area}
    (hwarm : bootenv &&& 1 ≠ 0) (hmode : bootenv >>> 1 ≠ 0)
    (haccepted : ∃ x, 0x300 ≤ x ∧ x < 0x400 ∧ bootDeliverArg bootenv deliverArg fcram x ≠ 0) :
    ValidTlnc (bootDeliverArg bootenv deliverArg fcram) ∧
      ∀ x < 0x400, bootDeliverArg bootenv deliverArg fcram x = fcram (8 * (x / 2) + x % 2) := by
  obtain ⟨x, hmin, hx, hne⟩ := haccepted
  have hvalid : ValidTlnc (copyFromLegacyModeFcram deliverArg fcram 0x400) := by
    by_contra hinvalid
    rw [boot_legacy hwarm hmode hx,
      if_neg (not_or.mpr ⟨Nat.not_lt_of_le hmin, hinvalid⟩)] at hne
    exact hne rfl
  have hsame : ∀ x < 0x400, bootDeliverArg bootenv deliverArg fcram x =
      copyFromLegacyModeFcram deliverArg fcram 0x400 x := by
    intro x hx
    rw [boot_legacy hwarm hmode hx, if_pos (.inr hvalid)]
  refine ⟨(validTlnc_congr fun x _ hx => hsame x hx).mpr hvalid, fun x hx => ?_⟩
  rw [hsame x hx]
  rw [show 0x400 = 2 * 0x200 from rfl] at hx ⊢
  exact copyFrom_apply deliverArg fcram hx

theorem handedOver_twl (s : DeliverState) (autobootTwlTitleId : UInt64) :
    (s.loadDeliverArg.configureHomebrewAutobootTwl
      autobootTwlTitleId).commitDeliverArg.reboot.hasValidTlncAutobootParams = true := by
  generalize ht : s.loadDeliverArg.configureHomebrewAutobootTwl autobootTwlTitleId = t
  obtain ⟨hvalid, hflag⟩ := twl_tlnc s.loadDeliverArg autobootTwlTitleId
  rw [ht] at hvalid hflag
  have hloaded : t.loadDeliverArg = t := by
    refine if_pos ?_
    rw [← ht]
    show s.loadDeliverArg.deliverArgLoaded = true
    unfold loadDeliverArg
    split_ifs with h
    · exact h
    · rfl
  have hmode : t.nextBootenv >>> 1 ≠ 0 := by
    have hbootenv : t.nextBootenv = 3 := by
      have hset : t.bootenv = 3 := by
        rw [← ht]
        rfl
      unfold nextBootenv
      rw [hset]
      decide
    rw [hbootenv]
    decide
  have hcommitted : t.commitDeliverArg.deliverArg = t.deliverArg := by
    rw [(commit_legacy hmode).1, hloaded]
  refine hasValid_of_eq (fun x _ hx => ?_) hvalid.1 hflag
  refine (handedOver_legacy hmode hx).trans ?_
  rw [hcommitted, if_pos (.inr hvalid)]

end DeliverState

open DeliverState

/-- In CTR mode what is committed is accepted, and it is read back as it is, with its checksum. In
legacy modes it is read back as it is up to its TLNC block, and with it if the block is valid:
nothing is done about its checksum there. Whatever else the memory holds is accepted with a right
checksum only, and the block of the autoboot is. -/
theorem deliverArg_handOver (s : DeliverState) :
    (s.nextBootenv >>> 1 = 0 →
      EqOutside s.commitDeliverArg.deliverArg s.loadDeliverArg.deliverArg 0x438 0x440 ∧
      ValidCtr s.handedOver ∧ ∀ x < 0x1000, s.handedOver x = s.commitDeliverArg.deliverArg x) ∧
    (s.nextBootenv >>> 1 ≠ 0 →
      s.commitDeliverArg.deliverArg = s.loadDeliverArg.deliverArg ∧
      (∀ x < 0x300, s.handedOver x = s.commitDeliverArg.deliverArg x) ∧
      (ValidTlnc s.commitDeliverArg.deliverArg →
        ValidTlnc s.handedOver ∧ ∀ x < 0x400, s.handedOver x = s.commitDeliverArg.deliverArg x) ∧
      (¬ValidTlnc s.commitDeliverArg.deliverArg →
        ∀ x, 0x300 ≤ x → x < 0x400 → s.handedOver x = 0)) ∧
    (∀ fcram : Area,
      (s.nextBootenv >>> 1 = 0 →
        (∃ x < 0x1000, (s.commitDeliverArg.bootsWith fcram).deliverArg x ≠ 0) →
        ValidCtr (s.commitDeliverArg.bootsWith fcram).deliverArg ∧
          ∀ x < 0x1000, (s.commitDeliverArg.bootsWith fcram).deliverArg x = fcram x) ∧
      (s.nextBootenv >>> 1 ≠ 0 →
        (∃ x, 0x300 ≤ x ∧ x < 0x400 ∧ (s.commitDeliverArg.bootsWith fcram).deliverArg x ≠ 0) →
        ValidTlnc (s.commitDeliverArg.bootsWith fcram).deliverArg ∧
          ∀ x < 0x400, (s.commitDeliverArg.bootsWith fcram).deliverArg x =
            fcram (8 * (x / 2) + x % 2))) ∧
    ∀ autobootTwlTitleId, (s.loadDeliverArg.configureHomebrewAutobootTwl
      autobootTwlTitleId).commitDeliverArg.reboot.hasValidTlncAutobootParams = true := by
  have hboots : ∀ fcram, (s.commitDeliverArg.bootsWith fcram).deliverArg =
      bootDeliverArg s.nextBootenv (fun _ => 0) fcram := by
    intro fcram
    rw [← commit_bootenv]
    rfl
  refine ⟨fun hmode => ?_, fun hmode => ⟨(commit_legacy hmode).1, ?_, ?_, ?_⟩,
    fun fcram => ⟨fun hmode haccepted => ?_, fun hmode haccepted => ?_⟩, s.handedOver_twl⟩
  · have hsame : ∀ x < 0x1000, s.handedOver x = s.commitDeliverArg.deliverArg x :=
      fun x hx => handedOver_ctr hmode hx
    have hcommitted := (commit_ctr hmode).1
    refine ⟨?_, (validCtr_congr fun x _ hx => hsame x (hx.trans (by decide))).mpr ?_, hsame⟩
    · rw [hcommitted]
      exact eqOutside_signCtr _
    · rw [hcommitted]
      exact validCtr_signCtr _
  · intro x hx
    rw [handedOver_legacy hmode (hx.trans (by decide)), if_pos (.inl hx)]
  · intro hvalid
    have hsame : ∀ x < 0x400, s.handedOver x = s.commitDeliverArg.deliverArg x := by
      intro x hx
      rw [handedOver_legacy hmode hx, if_pos (.inr hvalid)]
    exact ⟨(validTlnc_congr fun x _ hx => hsame x hx).mpr hvalid, hsame⟩
  · intro hinvalid x hmin hx
    rw [handedOver_legacy hmode hx, if_neg (not_or.mpr ⟨Nat.not_lt_of_le hmin, hinvalid⟩)]
  · rw [hboots] at haccepted ⊢
    exact boot_ctr_accepted s.nextBootenv_warm hmode haccepted
  · rw [hboots] at haccepted ⊢
    exact boot_legacy_accepted s.nextBootenv_warm hmode haccepted

/-- A TLNC block without its checksum, in a legacy mode. -/
def unsignedTlnc : DeliverState where
  deliverArg := write (fun _ => 0) 0x300 tlncMagic
  deliverArgLoaded := true
  fcram _ := 0
  bootenv := 3

/-- It is committed, and not read back. -/
theorem unsigned_is_cleared : unsignedTlnc.handedOver 0x300 = 0 ∧
    unsignedTlnc.commitDeliverArg.deliverArg 0x300 = 0x54 ∧ ¬ValidTlnc unsignedTlnc.handedOver := by
  have hmode : unsignedTlnc.nextBootenv >>> 1 ≠ 0 := by decide
  have hcommitted : unsignedTlnc.commitDeliverArg.deliverArg = unsignedTlnc.deliverArg :=
    (commit_legacy hmode).1
  have hinvalid : ¬ValidTlnc unsignedTlnc.commitDeliverArg.deliverArg := by
    rw [hcommitted]
    rintro ⟨-, -, hcrc⟩
    exact absurd hcrc (by decide)
  have hcleared : ∀ x, 0x300 ≤ x → x < 0x400 → unsignedTlnc.handedOver x = 0 := by
    intro x hmin hx
    rw [handedOver_legacy hmode hx, if_neg (not_or.mpr ⟨Nat.not_lt_of_le hmin, hinvalid⟩)]
  refine ⟨hcleared 0x300 le_rfl (by decide), ?_, fun hvalid => ?_⟩
  · rw [hcommitted]
    decide
  · have hmagic : unsignedTlnc.handedOver 0x300 = 0x54 :=
      List.head_eq_of_cons_eq (hvalid.1 : read unsignedTlnc.handedOver 0x300 4 = _)
    rw [hcleared _ le_rfl (by decide)] at hmagic
    exact absurd hmagic (by decide)

end Presence3DS.Arm9
