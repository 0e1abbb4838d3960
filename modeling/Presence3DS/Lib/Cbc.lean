import Mathlib.Algebra.Order.Ring.Int
import Mathlib.Algebra.Order.Ring.Nat
import Mathlib.Data.List.TakeWhile
import Mathlib.Order.Bounds.Basic
import Mathlib.Order.Fin.Basic

/-! Cipher block chaining, of messages of bytes that PKCS#7 pads to whole blocks. -/

namespace Cbc

/-- A cipher of blocks, each of which stands for a list of `size` symbols. -/
structure BlockCipher (α β : Type*) where
  size : ℕ
  pos : 0 < size
  ofList : List α → β
  toList : β → List α
  length_toList (b : β) : (toList b).length = size
  ofList_toList (b : β) : ofList (toList b) = b
  toList_ofList {l : List α} (h : l.length = size) : toList (ofList l) = l
  xor : β → β → β
  xor_xor_self (b c : β) : xor (xor b c) c = b
  encrypt : β → β
  decrypt : β → β
  decrypt_encrypt (b : β) : decrypt (encrypt b) = b

namespace BlockCipher

variable {α β : Type*} (E : BlockCipher α β)

/-! ## Texts and blocks -/

def blocks : ℕ → List α → List β
  | 0, _ => []
  | count + 1, text => E.ofList (text.take E.size) :: blocks count (text.drop E.size)

def text (bs : List β) : List α := bs.flatMap E.toList

theorem text_cons (b : β) (bs : List β) : E.text (b :: bs) = E.toList b ++ E.text bs :=
  List.flatMap_cons

theorem text_append (bs cs : List β) : E.text (bs ++ cs) = E.text bs ++ E.text cs :=
  List.flatMap_append

theorem length_text (bs : List β) : (E.text bs).length = E.size * bs.length := by
  induction bs with
  | nil => rfl
  | cons b bs ih => rw [text_cons, List.length_append, E.length_toList, ih, List.length_cons,
      Nat.mul_succ, Nat.add_comm]

theorem length_blocks (count : ℕ) (text : List α) : (E.blocks count text).length = count := by
  induction count generalizing text with
  | zero => rfl
  | succ count ih => rw [blocks, List.length_cons, ih]

theorem text_blocks {count : ℕ} {text : List α} (h : text.length = E.size * count) :
    E.text (E.blocks count text) = text := by
  induction count generalizing text with
  | zero => exact (List.length_eq_zero_iff.mp h).symm
  | succ count ih =>
    rw [Nat.mul_succ] at h
    have hfirst : (text.take E.size).length = E.size := by
      rw [List.length_take]
      omega
    have hrest : (text.drop E.size).length = E.size * count := by
      rw [List.length_drop]
      omega
    rw [blocks, text_cons, E.toList_ofList hfirst, ih hrest, List.take_append_drop]

theorem blocks_text (bs : List β) : E.blocks bs.length (E.text bs) = bs := by
  induction bs with
  | nil => rfl
  | cons b bs ih =>
    rw [List.length_cons, blocks, text_cons, List.take_left' (E.length_toList b),
      List.drop_left' (E.length_toList b), E.ofList_toList, ih]

/-- The blocks by their places in the text. -/
theorem blocks_eq_map (count : ℕ) (text : List α) : E.blocks count text =
    (List.range count).map fun i => E.ofList ((text.drop (E.size * i)).take E.size) := by
  induction count generalizing text with
  | zero => rfl
  | succ count ih =>
    rw [blocks, ih, List.range_succ_eq_map, List.map_cons, List.map_map]
    congr 1
    apply List.map_congr_left
    intro i hi
    show E.ofList _ = E.ofList _
    rw [List.drop_drop, Nat.mul_succ, Nat.add_comm]

/-! ## The chain -/

def encryptBlocks (iv : β) : List β → List β
  | [] => []
  | b :: bs =>
    let c := E.encrypt (E.xor b iv)
    c :: encryptBlocks c bs

def decryptBlocks (iv : β) : List β → List β
  | [] => []
  | c :: cs => E.xor (E.decrypt c) iv :: decryptBlocks c cs

theorem length_encryptBlocks (iv : β) (bs : List β) :
    (E.encryptBlocks iv bs).length = bs.length := by
  induction bs generalizing iv with
  | nil => rfl
  | cons b bs ih => rw [encryptBlocks, List.length_cons, ih, List.length_cons]

theorem decryptBlocks_encryptBlocks (iv : β) (bs : List β) :
    E.decryptBlocks iv (E.encryptBlocks iv bs) = bs := by
  induction bs generalizing iv with
  | nil => rfl
  | cons b bs ih => rw [encryptBlocks, decryptBlocks, E.decrypt_encrypt, E.xor_xor_self, ih]

/-- A block is chained to the last one before it. -/
theorem encryptBlocks_concat (iv b : β) (bs : List β) : E.encryptBlocks iv (bs ++ [b]) =
    E.encryptBlocks iv bs ++ [E.encrypt (E.xor b ((E.encryptBlocks iv bs).getLastD iv))] := by
  induction bs generalizing iv with
  | nil => rfl
  | cons a bs ih => rw [List.cons_append, encryptBlocks, encryptBlocks, ih, List.cons_append,
      List.getLastD_cons]

end BlockCipher

/-! ## Padding -/

/-- How many bytes pad a text of this length. -/
def padding (size length : ℕ) : ℕ := size - length % size

def pad (size : ℕ) (message : List UInt8) : List UInt8 :=
  let count := padding size message.length
  message ++ List.replicate count (UInt8.ofNat count)

def unpad (size : ℕ) (text : List UInt8) : Option (List UInt8) :=
  text.getLast?.bind fun last =>
    let message := text.take (text.length - last.toNat)
    if pad size message = text then some message else none

variable {size : ℕ} {message : List UInt8}

theorem padding_pos (hpos : 0 < size) (length : ℕ) : 0 < padding size length :=
  Nat.sub_pos_of_lt (Nat.mod_lt length hpos)

theorem length_pad : (pad size message).length = message.length + padding size message.length := by
  rw [pad, List.length_append, List.length_replicate]

/-- The padded text is made of whole blocks. -/
theorem length_pad_eq (hpos : 0 < size) :
    (pad size message).length = size * (message.length / size + 1) := by
  have hdiv := Nat.div_add_mod message.length size
  have hmod := Nat.mod_lt message.length hpos
  rw [length_pad, padding, Nat.mul_succ]
  omega

theorem isLeast_length_pad (hpos : 0 < size) :
    IsLeast {n | size ∣ n ∧ message.length < n} (pad size message).length := by
  constructor
  · refine ⟨⟨_, length_pad_eq hpos⟩, ?_⟩
    rw [length_pad]
    exact Nat.lt_add_of_pos_right (padding_pos hpos _)
  · rintro n ⟨⟨count, rfl⟩, hn⟩
    rw [length_pad_eq hpos]
    exact Nat.mul_le_mul_left _ (Nat.div_lt_of_lt_mul hn)

theorem unpad_pad (hpos : 0 < size) (hsize : size < 256) : unpad size (pad size message) =
    some message := by
  have hcount := padding_pos hpos message.length
  have hlt : padding size message.length < 256 := Nat.lt_of_le_of_lt (Nat.sub_le _ _) hsize
  have hlast : (pad size message).getLast? = some (UInt8.ofNat (padding size message.length)) := by
    rw [pad, List.getLast?_append, List.getLast?_replicate, if_neg (Nat.ne_of_gt hcount)]
    rfl
  have htake : (pad size message).take ((pad size message).length -
      (UInt8.ofNat (padding size message.length)).toNat) = message := by
    rw [length_pad, UInt8.toNat_ofNat_of_lt' hlt, Nat.add_sub_cancel]
    exact List.take_left' rfl
  rw [unpad, hlast, Option.bind_some]
  simp only [htake, if_pos]

/-! ## Messages -/

namespace BlockCipher

variable {β : Type*} (E : BlockCipher UInt8 β)

def encryptMessage (iv : β) (message : List UInt8) : List UInt8 :=
  let padded := pad E.size message
  E.text (E.encryptBlocks iv (E.blocks (padded.length / E.size) padded))

def decryptMessage (iv : β) (text : List UInt8) : Option (List UInt8) :=
  unpad E.size (E.text (E.decryptBlocks iv (E.blocks (text.length / E.size) text)))

theorem length_encryptMessage (iv : β) (message : List UInt8) :
    (E.encryptMessage iv message).length = (pad E.size message).length := by
  rw [encryptMessage, length_text, length_encryptBlocks, length_blocks, length_pad_eq E.pos,
    Nat.mul_div_cancel_left _ E.pos]

theorem decryptMessage_encryptMessage (hsize : E.size < 256) (iv : β) (message : List UInt8) :
    E.decryptMessage iv (E.encryptMessage iv message) = some message := by
  have hcount : (E.encryptMessage iv message).length / E.size =
      (E.encryptBlocks iv
        (E.blocks ((pad E.size message).length / E.size) (pad E.size message))).length := by
    rw [encryptMessage, length_text, Nat.mul_div_cancel_left _ E.pos]
  have hwhole : (pad E.size message).length =
      E.size * ((pad E.size message).length / E.size) := by
    rw [length_pad_eq E.pos, Nat.mul_div_cancel_left _ E.pos]
  rw [decryptMessage, hcount, encryptMessage, blocks_text, decryptBlocks_encryptBlocks,
    text_blocks E hwhole, unpad_pad E.pos hsize]

end BlockCipher

end Cbc
