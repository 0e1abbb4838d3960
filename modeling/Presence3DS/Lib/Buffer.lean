import Mathlib.Algebra.Order.Ring.Int
import Mathlib.Algebra.Order.Ring.Nat
import Mathlib.Data.List.TakeWhile
import Mathlib.Order.Fin.Basic

/-! Programs that work on a buffer of a fixed size. An access outside of the buffer is a fault, which
the program is not the one to notice. -/

namespace Buffer

inductive Stop where
  | failed
  | fault
deriving DecidableEq

/-- What has been written stays also where the program stops. -/
abbrev BufferM (α : Type) := ExceptT Stop (StateM (List α))

variable {α β γ : Type}

def result (x : BufferM α β) (b : List α) : Except Stop β × List α := x.run b

def fail : BufferM α β := throw .failed

/-- A failure is seen here, and a fault is not. -/
def attempt (x : BufferM α β) : BufferM α (Option β) :=
  tryCatch (some <$> x) fun e => if e = .failed then pure none else throw e

/-- The buffer with some data in the place of its own from `i` on. -/
def splice (b : List α) (i : ℕ) (data : List α) : List α :=
  b.take i ++ data ++ b.drop (i + data.length)

def write (i : ℕ) (data : List α) : BufferM α Unit := do
  let b ← get
  if i + data.length ≤ b.length then set (splice b i data) else throw .fault

def read (i : ℕ) : BufferM α α := do
  let b ← get
  match b[i]? with
  | some a => return a
  | none => throw .fault

def memset (i : ℕ) (a : α) (count : ℕ) : BufferM α Unit := write i (List.replicate count a)

/-! ## Splices -/

variable {b data : List α} {i k n : ℕ}

theorem length_splice (h : i + data.length ≤ b.length) : (splice b i data).length = b.length := by
  rw [splice, List.length_append, List.length_append, List.length_take, List.length_drop]
  omega

@[simp] theorem splice_nil (b : List α) (i : ℕ) : splice b i [] = b := by
  rw [splice, List.append_nil, List.length_nil, Nat.add_zero, List.take_append_drop]

/-- Data in the place of what is behind the front of a buffer. -/
theorem splice_append (front back data : List α) :
    splice (front ++ back) front.length data = front ++ data ++ back.drop data.length := by
  rw [splice, List.take_left, List.drop_length_add_append]

/-! ## Growing images -/

variable {a : α}

/-- An image that grows where it is written to beyond of its end. -/
def writeAt (a : α) (image : List α) (i : ℕ) (data : List α) : List α :=
  if data = [] then image
  else splice (image ++ List.replicate (i - image.length) a) i data

def resize (a : α) (image : List α) (n : ℕ) : List α :=
  image.take n ++ List.replicate (n - image.length) a

theorem resize_of_le {image : List α} (h : image.length ≤ n) :
    resize a image n = image ++ List.replicate (n - image.length) a := by
  rw [resize, List.take_of_length_le h]

theorem length_resize (a : α) {image : List α} (h : image.length ≤ n) :
    (resize a image n).length = n := by
  rw [resize_of_le h, List.length_append, List.length_replicate, Nat.add_sub_cancel' h]

theorem take_splice (hin : i ≤ n) (hn : n ≤ b.length) :
    (splice b i data).take (max n (i + data.length)) = splice (b.take n) i data := by
  have hprefix : (b.take i ++ data).length = i + data.length := by
    rw [List.length_append, List.length_take_of_le (hin.trans hn)]
  rw [splice, splice, List.take_take, Nat.min_eq_left hin, List.take_append, hprefix,
    List.take_of_length_le (by omega), List.drop_take]
  congr 2
  omega

theorem take_fill (hn : n ≤ b.length) : (splice b n (List.replicate (i - n) a)).take (max n i) =
    b.take n ++ List.replicate (i - n) a := by
  apply List.take_left'
  rw [List.length_append, List.length_take_of_le hn, List.length_replicate]
  omega

/-- The first part of a buffer as an image: what is between its end and the data is filled. -/
theorem take_splice_grow (hdata : data ≠ []) (hn : n ≤ b.length) (h : i + data.length ≤ b.length) :
    (splice (splice b n (List.replicate (i - n) a)) i data).take (max n (i + data.length)) =
      writeAt a (b.take n) i data := by
  have hlen : (b.take n).length = n := List.length_take_of_le hn
  rw [writeAt, if_neg hdata, hlen, ← take_fill hn, ← take_splice (Nat.le_max_right n i) _]
  · congr 1
    omega
  · rw [length_splice (by rw [List.length_replicate]; omega)]
    omega

/-! ## Slices -/

/-- A part of a buffer. -/
def slice (b : List α) (i size : ℕ) : List α := (b.drop i).take size

section
variable {sizes : List ℕ} {j size : ℕ}

theorem length_slice (h : i + size ≤ b.length) : (slice b i size).length = size := by
  rw [slice, List.length_take, List.length_drop]
  omega

theorem getElem?_slice (b : List α) (i size j : ℕ) :
    (slice b i size)[j]? = if j < size then b[i + j]? else none := by
  rw [slice, List.getElem?_take, List.getElem?_drop]

theorem getElem?_splice (hi : i ≤ b.length) (j : ℕ) : (splice b i data)[j]? =
    if i ≤ j ∧ j < i + data.length then data[j - i]? else b[j]? := by
  have hlength : (b.take i).length = i := List.length_take_of_le hi
  rw [splice, List.append_assoc]
  split_ifs with hj
  · rw [List.getElem?_append_right (by omega), hlength, List.getElem?_append_left (by omega)]
  · rcases Nat.lt_or_ge j i with hlt | hge
    · rw [List.getElem?_append_left (by omega), List.getElem?_take_of_lt hlt]
    · rw [List.getElem?_append_right (by omega), hlength, List.getElem?_append_right (by omega),
        List.getElem?_drop]
      congr 1
      omega

theorem slice_slice (hij : i ≤ j) (h : j + size ≤ i + n) :
    slice (slice b i n) (j - i) size = slice b j size := by
  apply List.ext_getElem?
  intro k
  rw [getElem?_slice, getElem?_slice, getElem?_slice]
  split_ifs
  all_goals first | omega | rfl | (congr 1; omega)

/-- A slice of what has been put there in a wider place. -/
theorem slice_splice_inside (hi : i ≤ b.length) (hj : i ≤ j)
    (hsize : j + size ≤ i + data.length) :
    slice (splice b i data) j size = slice data (j - i) size := by
  apply List.ext_getElem?
  intro k
  rw [getElem?_slice, getElem?_slice, getElem?_splice hi]
  split_ifs with hk hplace
  · congr 1
    omega
  · omega
  · rfl

/-- Data in a wider place change the slice of it. -/
theorem slice_splice (hj : j ≤ b.length) (hij : i ≤ j) (hsize : j + data.length ≤ i + size)
    (hb : i + size ≤ b.length) :
    slice (splice b j data) i size = splice (slice b i size) (j - i) data := by
  apply List.ext_getElem?
  intro k
  rw [getElem?_slice, getElem?_splice hj, getElem?_splice (by rw [length_slice hb]; omega),
    getElem?_slice]
  split_ifs
  all_goals first | omega | rfl | (congr 1; omega)

theorem splice_slice (hb : i + size ≤ b.length) : splice b i (slice b i size) = b := by
  apply List.ext_getElem?
  intro k
  rw [getElem?_splice (by omega), length_slice hb, getElem?_slice]
  split_ifs with hk hsize
  · congr 1
    omega
  · omega
  · rfl

/-- Data that are changed before they are put in their place may be changed there. -/
theorem splice_inside {inner : List α} (hb : i + data.length ≤ b.length) (hij : i ≤ j)
    (hinner : j + inner.length ≤ i + data.length) :
    splice b i (splice data (j - i) inner) = splice (splice b i data) j inner := by
  apply List.ext_getElem?
  intro k
  rw [getElem?_splice (by omega), getElem?_splice (by omega), length_splice (by omega),
    getElem?_splice (by rw [length_splice hb]; omega), getElem?_splice (by omega)]
  split_ifs
  all_goals first | omega | rfl | (congr 1; omega)

theorem splice_add (b data : List α) (n i : ℕ) :
    splice b (n + i) data = b.take n ++ splice (b.drop n) i data := by
  rw [splice, splice, List.take_add, List.drop_drop]
  simp only [List.append_assoc, Nat.add_assoc]

/-! ## Consecutive fields -/

/-- The fields of these sizes that a buffer begins with. -/
def fields : List ℕ → List α → List (List α)
  | [], _ => []
  | size :: sizes, b => b.take size :: fields sizes (b.drop size)

theorem field_end_le (hi : sizes[i]? = some n) : (sizes.take i).sum + n ≤ sizes.sum := by
  induction sizes generalizing i with
  | nil => cases hi
  | cons size sizes ih =>
    cases i with
    | zero =>
      obtain rfl : size = n := Option.some.inj hi
      rw [List.take_zero, List.sum_nil, List.sum_cons]
      omega
    | succ i =>
      have hrest := ih (i := i) (by rw [← hi, List.getElem?_cons_succ])
      rw [List.take_succ_cons, List.sum_cons, List.sum_cons]
      omega

theorem map_length_fields (h : sizes.sum ≤ b.length) :
    (fields sizes b).map List.length = sizes := by
  induction sizes generalizing b with
  | nil => rfl
  | cons size sizes ih =>
    rw [List.sum_cons] at h
    rw [fields, List.map_cons, List.length_take_of_le (by omega),
      ih (by rw [List.length_drop]; omega)]

theorem flatten_fields (h : b.length = sizes.sum) : (fields sizes b).flatten = b := by
  induction sizes generalizing b with
  | nil => exact (List.length_eq_zero_iff.mp h).symm
  | cons size sizes ih =>
    rw [List.sum_cons] at h
    rw [fields, List.flatten_cons, ih (by rw [List.length_drop]; omega), List.take_append_drop]

theorem fields_flatten (values : List (List α)) :
    fields (values.map List.length) values.flatten = values := by
  induction values with
  | nil => rfl
  | cons v values ih =>
    rw [List.map_cons, fields, List.flatten_cons, List.take_left, List.drop_left, ih]

theorem getElem?_fields (sizes : List ℕ) (b : List α) (i : ℕ) :
    (fields sizes b)[i]? = sizes[i]?.map fun size => slice b (sizes.take i).sum size := by
  induction sizes generalizing b i with
  | nil => rfl
  | cons size sizes ih =>
    cases i with
    | zero => rfl
    | succ i =>
      rw [fields, List.getElem?_cons_succ, List.getElem?_cons_succ, ih, List.take_succ_cons,
        List.sum_cons]
      simp only [slice, List.drop_drop]

/-- A field that is replaced is replaced in its place, and the others stay. -/
theorem fields_splice (hsum : sizes.sum ≤ b.length) (hi : sizes[i]? = some data.length) :
    fields sizes (splice b (sizes.take i).sum data) = (fields sizes b).set i data := by
  induction sizes generalizing b i with
  | nil => cases hi
  | cons size sizes ih =>
    rw [List.sum_cons] at hsum
    cases i with
    | zero =>
      obtain rfl : size = data.length := Option.some.inj hi
      rw [fields, fields, List.set_cons_zero, List.take_zero, List.sum_nil, splice, List.take_zero,
        List.nil_append, Nat.zero_add, List.take_left, List.drop_left]
    | succ i =>
      rw [List.getElem?_cons_succ] at hi
      have hlength : (b.take size).length = size := List.length_take_of_le (by omega)
      rw [List.take_succ_cons, List.sum_cons, splice_add, fields, fields,
        List.set_cons_succ, List.take_left' hlength, List.drop_left' hlength,
        ih (by rw [List.length_drop]; omega) hi]

end

/-! ## Runs -/

theorem result_bind (x : BufferM α β) (f : β → BufferM α γ) (b : List α) :
    result (x >>= f) b =
      match result x b with
      | (.ok a, b') => result (f a) b'
      | (.error e, b') => (.error e, b') := by
  rw [result, result, ExceptT.run_bind]
  show StateT.bind _ _ b = _
  unfold StateT.bind
  rcases (x.run b : Except Stop β × List α) with ⟨_ | a, b'⟩
  · rfl
  · rfl

theorem result_bind_ok {x : BufferM α β} {c : β} {b' : List α} (h : result x b = (.ok c, b'))
    (f : β → BufferM α γ) : result (x >>= f) b = result (f c) b' := by
  rw [result_bind, h]

theorem result_bind_error {x : BufferM α β} {e : Stop} {b' : List α}
    (h : result x b = (.error e, b')) (f : β → BufferM α γ) :
    result (x >>= f) b = (.error e, b') := by
  rw [result_bind, h]

@[simp] theorem result_pure (a : β) (b : List α) : result (pure a : BufferM α β) b = (.ok a, b) :=
  rfl

@[simp] theorem result_fail (b : List α) :
    result (fail : BufferM α β) b = (.error .failed, b) := rfl

theorem result_write (h : i + data.length ≤ b.length) :
    result (write i data) b = (.ok (), splice b i data) := by
  show result (if i + data.length ≤ b.length then (set (splice b i data) : BufferM α Unit)
    else throw .fault) b = _
  rw [if_pos h]
  rfl

theorem result_write_fault (h : b.length < i + data.length) :
    result (write i data) b = (.error .fault, b) := by
  show result (if i + data.length ≤ b.length then (set (splice b i data) : BufferM α Unit)
    else throw .fault) b = _
  rw [if_neg (by omega)]
  rfl

/-- The program looks at the whole buffer. -/
theorem result_get_bind (f : List α → BufferM α γ) (b : List α) :
    result (do let b ← get; f b) b = result (f b) b := rfl

theorem result_read {a : α} (h : b[i]? = some a) : result (read i) b = (.ok a, b) := by
  show result (match b[i]? with
    | some a => (pure a : BufferM α α)
    | none => throw Stop.fault) b = _
  rw [h]
  rfl

theorem result_attempt (x : BufferM α β) (b : List α) :
    result (attempt x) b =
      match result x b with
      | (.ok a, b') => (.ok (some a), b')
      | (.error .failed, b') => (.ok none, b')
      | (.error .fault, b') => (.error .fault, b') := by
  show ExceptT.run (tryCatch (some <$> x) _) b = _
  rw [ExceptT.run_tryCatch, ExceptT.run_map]
  show StateT.bind (StateT.map _ _) _ b = _
  unfold StateT.bind StateT.map
  rw [result]
  rcases (x.run b : Except Stop β × List α) with ⟨⟨_ | _⟩ | a, b'⟩
  · rfl
  · rfl
  · rfl

/-! ## Safe programs -/

/-- The program has no fault on a buffer of this size, and what it returns is as stated. -/
def Safe (size : ℕ) (x : BufferM α β) (Q : β → Prop) : Prop :=
  ∀ b : List α, b.length = size → (result x b).2.length = size ∧
    match (result x b).1 with
    | .ok a => Q a
    | .error e => e = .failed

variable {size : ℕ} {x : BufferM α β} {Q : β → Prop}

theorem Safe.bind {f : β → BufferM α γ} {R : γ → Prop} (h : Safe size x Q)
    (hf : ∀ a, Q a → Safe size (f a) R) : Safe size (x >>= f) R := by
  intro b hb
  have hx := h b hb
  rw [result_bind]
  rcases hresult : result x b with ⟨e | a, b'⟩
  · rw [hresult] at hx
    exact hx
  · rw [hresult] at hx
    exact hf a hx.2 b' hx.1

theorem Safe.mono {R : β → Prop} (h : Safe size x Q) (hQ : ∀ a, Q a → R a) : Safe size x R := by
  intro b hb
  have hx := h b hb
  rcases hresult : result x b with ⟨e | a, b'⟩
  · rw [hresult] at hx
    exact hx
  · rw [hresult] at hx
    exact ⟨hx.1, hQ a hx.2⟩

theorem safe_pure {a : β} (h : Q a) : Safe size (pure a : BufferM α β) Q := fun _ hb => ⟨hb, h⟩

theorem safe_fail : Safe size (fail : BufferM α β) Q := fun _ hb => ⟨hb, rfl⟩

theorem safe_write (h : i + data.length ≤ size) : Safe size (write i data) fun _ => True := by
  intro b hb
  rw [result_write (hb ▸ h)]
  exact ⟨(length_splice (hb ▸ h)).trans hb, trivial⟩

theorem safe_memset {a : α} (h : i + n ≤ size) : Safe size (memset i a n) fun _ => True :=
  safe_write (by rwa [List.length_replicate])

theorem safe_read (h : i < size) : Safe size (read i : BufferM α α) fun _ => True := by
  intro b hb
  rw [result_read (List.getElem?_eq_getElem (hb ▸ h))]
  exact ⟨hb, trivial⟩

end Buffer
