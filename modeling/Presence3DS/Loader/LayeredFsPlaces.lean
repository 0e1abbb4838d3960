import Presence3DS.Loader.LayeredFsSymbols
import Mathlib.Order.Bounds.Basic

/-! The room for the payload and the path: where `findLayeredFsPayloadOffset` finds it, and when
both have it. -/

namespace Presence3DS.Loader.LayeredFs

open Loops RawMemory

/-! ## The functions that are replaced -/

/-- The system call of `svcConnectToPort` comes behind a first instruction. -/
def ConnectToPort (img : Image) (svcConnectToPort : ℕ) : Prop :=
  IsLeast {a | Instr img a ∧ 4 ≤ a ∧ word img.code a = svcConnectToPortWord} (svcConnectToPort + 4)

/-- A function goes on up to the start of the next one. -/
def InBody (img : Image) (func a : ℕ) : Prop :=
  Instr img a ∧ func < a ∧ ∀ b, 4 ∣ b → func < b → b ≤ a → half img.code (b + 2) ≠ pushHalf

def Excluded (img : Image) (func : ℕ) : Prop :=
  ∃ a, InBody img func a ∧ word img.code a = excludedWord

/-- A function that may be replaced calls `svcConnectToPort` at a place. -/
def Calls (img : Image) (svcConnectToPort i func : ℕ) : Prop :=
  Instr img i ∧ 4 ≤ i ∧ word img.code i = makeBranchLink i svcConnectToPort ∧
    findFunctionStart img.code i = some func ∧ ¬Excluded img func

/-- The function that the payload replaces -/
def ThrowFatalError (img : Image) (func : ℕ) : Prop :=
  ∃ svcConnectToPort i, ConnectToPort img svcConnectToPort ∧
    IsLeast {i | ∃ f, Calls img svcConnectToPort i f} i ∧ Calls img svcConnectToPort i func

/-- The function that the path replaces -/
def StrSpace (img : Image) (func : ℕ) : Prop :=
  ∃ a, IsLeast {a | Instr img a ∧ word img.code a = strSpaceWord ∧
      ∃ f, findFunctionStart img.code a = some f} a ∧
    findFunctionStart img.code a = some func

/-! ## The places -/

def padding (n : ℕ) : ℕ := pages n - n

/-- The path has room behind the read-only data, or behind the data. -/
def PathPadded (img : Image) : Prop :=
  pathSize ≤ padding img.roSize ∨ pathSize ≤ padding img.dataSize

def PayloadAt (img : Image) (romfsRedirPatchSize p : ℕ) : Prop :=
  if romfsRedirPatchSize ≤ padding img.size then p = img.size else ThrowFatalError img p

def PathAt (img : Image) (q : ℕ) : Prop :=
  if pathSize ≤ padding img.roSize then q = pages img.size + img.roSize
  else if pathSize ≤ padding img.dataSize then
    q = pages img.size + pages img.roSize + img.dataSize
  else StrSpace img q

/-- What is put at both places lies in the mapped image, and no byte of it at both. -/
def Apart (img : Image) (romfsRedirPatchSize p q : ℕ) : Prop :=
  p + romfsRedirPatchSize ≤ img.mapped ∧ q + pathSize ≤ img.mapped ∧
    ∀ x, p ≤ x → x < p + romfsRedirPatchSize → q ≤ x → ¬x < q + pathSize

/-- A function that is replaced is far enough from what is in front of it and behind it. -/
structure LeavesRoom (img : Image) (romfsRedirPatchSize : ℕ) : Prop where
  path : romfsRedirPatchSize ≤ padding img.size → ¬PathPadded img → ∀ f, StrSpace img f → f ≠ 0 →
    (romfsRedirPatchSize = 0 ∨ f + pathSize ≤ img.size) ∧ f + pathSize ≤ img.mapped
  payload : ¬romfsRedirPatchSize ≤ padding img.size → PathPadded img →
    ∀ f, ThrowFatalError img f → f ≠ 0 → ∀ q, PathAt img q → f + romfsRedirPatchSize ≤ q
  both : ¬romfsRedirPatchSize ≤ padding img.size → ¬PathPadded img →
    ∀ f g, ThrowFatalError img f → StrSpace img g → f ≠ 0 → g ≠ 0 →
      (f + romfsRedirPatchSize ≤ g ∨ g + pathSize ≤ f) ∧
        f + romfsRedirPatchSize ≤ img.mapped ∧ g + pathSize ≤ img.mapped

/-! ## The loops -/

section
variable {img : Image} {n p : ℕ} {a b i func svcConnectToPort : ℕ}

theorem rounded_eq (h : pages n < 0x100000000) : rounded n = pages n := by
  unfold pages at h
  unfold rounded pages
  rw [u32_of_lt (by omega)]

theorem le_pages (n : ℕ) : n ≤ pages n := by
  unfold pages
  omega

theorem sub32_rounded (h : pages n < 0x100000000) : sub32 (rounded n) n = padding n := by
  rw [rounded_eq h, sub32_of_le (le_pages n) h]
  rfl

theorem u32_next (h : a + 4 ≤ img.size) : u32 (a + 4) = a + 4 := by
  have hlt := img.size_lt
  exact u32_of_lt (by omega)

theorem reaches_word (img : Image) {σ ρ : Type} (body : σ → Pass σ ρ) (f : ℕ → σ)
    {P : ℕ → Prop} (hP : ∀ a, P a → Instr img a ∧ b ≤ a) (hb : 4 ∣ b)
    (hstep : ∀ a, Instr img a → b ≤ a → ¬P a → Reaches body (f a) (f (a + 4))) :
    (∃ a, IsLeast {a | P a} a ∧ Reaches body (f b) (f a)) ∨
      (∀ a, ¬P a) ∧ ∃ a, img.size < a + 4 ∧ Reaches body (f b) (f a) := by
  have hword {k : ℕ} (hk : k < (img.size - b) / 4) : Instr img (b + 4 * k) :=
    ⟨Nat.dvd_add hb (Nat.dvd_mul_right 4 k), by omega⟩
  have hindex {a : ℕ} (ha : P a) : ∃ k < (img.size - b) / 4, a = b + 4 * k := by
    obtain ⟨⟨hdvd, hend⟩, hle⟩ := hP a ha
    exact ⟨(a - b) / 4, by omega, by omega⟩
  have hrun := reaches_first (f := fun k => f (b + 4 * k)) (P := fun k => P (b + 4 * k))
    fun k hk hnot => hstep (b + 4 * k) (hword hk) (Nat.le_add_right b _) hnot
  rcases hrun with ⟨k, hk, hPk, hfirst, hreach⟩ | ⟨hnone, hreach⟩
  · refine .inl ⟨b + 4 * k, ⟨hPk, fun a ha => ?_⟩, hreach⟩
    obtain ⟨j, hj, rfl⟩ := hindex ha
    have hle : k ≤ j := Nat.le_of_not_lt fun hlt => hfirst j hlt ha
    omega
  · refine .inr ⟨fun a ha => ?_, b + 4 * ((img.size - b) / 4), by omega, hreach⟩
    obtain ⟨k, hk, rfl⟩ := hindex ha
    exact hnone k hk ha

theorem connectToPort_reaches (hsize : 4 ≤ img.size) :
    (∃ port, ConnectToPort img port ∧
      Reaches (placesPass img n) (.connectToPort 4) (.callOf port 4)) ∨
    (∀ port, ¬ConnectToPort img port) ∧
      Reaches (placesPass img n) (.connectToPort 4) (.path 0) := by
  have hrun := reaches_word img (placesPass img n) .connectToPort (b := 4)
    (P := fun a => Instr img a ∧ 4 ≤ a ∧ word img.code a = svcConnectToPortWord)
    (fun a ha => ⟨ha.1, ha.2.1⟩) (dvd_refl 4) fun a hinstr hle hnot => ?_
  · rcases hrun with ⟨a, hleast, hreach⟩ | ⟨hnone, a, hend, hreach⟩
    · obtain ⟨hinstr, hle, hword⟩ := hleast.1
      refine .inl ⟨a - 4, ?_, hreach.tail ?_⟩
      · rw [ConnectToPort, Nat.sub_add_cancel hle]
        exact hleast
      · show placesPass img n (.connectToPort a) = _
        rw [placesPass, if_pos ((le_sub32_iff hsize).mpr hinstr.2), if_pos hword]
    · refine .inr ⟨fun port hport => hnone _ hport.1, hreach.tail ?_⟩
      show placesPass img n (.connectToPort a) = _
      rw [placesPass, if_neg (fun h => ?_)]
      · rfl
      · exact absurd ((le_sub32_iff hsize).mp h) (Nat.not_le.mpr hend)
  · have hword : word img.code a ≠ svcConnectToPortWord := fun h => hnot ⟨hinstr, hle, h⟩
    refine Relation.ReflTransGen.single ?_
    show placesPass img n (.connectToPort a) = _
    rw [placesPass, if_pos ((le_sub32_iff hsize).mpr hinstr.2), if_neg hword, u32_next hinstr.2]

theorem bodyOf_reaches (hsize : 4 ≤ img.size) (hfunc : 4 ∣ func) (port i : ℕ) :
    (Excluded img func ∧ Reaches (placesPass img n) (.bodyOf port i func (func + 4))
      (.callOf port (u32 (i + 4)))) ∨
    ¬Excluded img func ∧
      Reaches (placesPass img n) (.bodyOf port i func (func + 4)) (.path func) := by
  have hrun := reaches_word img (placesPass img n) (.bodyOf port i func) (b := func + 4)
    (P := fun a => Instr img a ∧ func + 4 ≤ a ∧
      (half img.code (a + 2) = pushHalf ∨ word img.code a = excludedWord))
    (fun a ha => ⟨ha.1, ha.2.1⟩) (Nat.dvd_add hfunc (dvd_refl 4)) fun a hinstr hle hnot => ?_
  · have hend {a : ℕ} (h : ¬(a ≤ sub32 img.size 4 ∧ half img.code (a + 2) ≠ pushHalf)) :
        placesPass img n (.bodyOf port i func a) = .next (.path func) := by
      rw [placesPass, if_neg h]
    rcases hrun with ⟨a, ⟨⟨hinstr, hle, hstop⟩, hleast⟩, hreach⟩ | ⟨hnone, a, hbehind, hreach⟩
    · by_cases hpush : half img.code (a + 2) = pushHalf
      · refine .inr ⟨?_, hreach.tail (hend fun h => h.2 hpush)⟩
        rintro ⟨x, ⟨hx, hlt, hbody⟩, hword⟩
        have hxdvd := hx.1
        have hax : a ≤ x := hleast ⟨hx, by omega, .inr hword⟩
        exact hbody a hinstr.1 (by omega) hax hpush
      · have hword := hstop.resolve_left hpush
        refine .inl ⟨⟨a, ⟨hinstr, by omega, fun x hx hlt hxa hpush' => ?_⟩, hword⟩, hreach.tail ?_⟩
        · have hxi : Instr img x := ⟨hx, by have := hinstr.2; omega⟩
          obtain rfl : x = a := Nat.le_antisymm hxa (hleast ⟨hxi, by omega, .inl hpush'⟩)
          exact hpush hpush'
        · show placesPass img n (.bodyOf port i func a) = _
          rw [placesPass, if_pos ⟨(le_sub32_iff hsize).mpr hinstr.2, hpush⟩, if_pos hword]
    · refine .inr ⟨?_, hreach.tail (hend fun h => ?_)⟩
      · rintro ⟨x, ⟨hx, hlt, -⟩, hword⟩
        have hxdvd := hx.1
        exact hnone x ⟨hx, by omega, .inr hword⟩
      · exact absurd ((le_sub32_iff hsize).mp h.1) (Nat.not_le.mpr hbehind)
  · have hpush : half img.code (a + 2) ≠ pushHalf := fun h => hnot ⟨hinstr, hle, .inl h⟩
    have hword : word img.code a ≠ excludedWord := fun h => hnot ⟨hinstr, hle, .inr h⟩
    refine Relation.ReflTransGen.single ?_
    show placesPass img n (.bodyOf port i func a) = _
    rw [placesPass, if_pos ⟨(le_sub32_iff hsize).mpr hinstr.2, hpush⟩, if_neg hword,
      u32_next hinstr.2]

theorem callOf_pass {port : ℕ} (hsize : 4 ≤ img.size) (hinstr : Instr img a)
    (hword : word img.code a = makeBranchLink a port)
    (hstart : findFunctionStart img.code a = some func) :
    placesPass img n (.callOf port a) = .next (.bodyOf port a func (func + 4)) := by
  have hlt := img.size_lt
  have hfunc := findFunctionStart_lt hstart
  have hend := hinstr.2
  rw [placesPass, if_pos ((le_sub32_iff hsize).mpr hend), if_neg (not_not.mpr hword), hstart]
  show Pass.next (Phase.bodyOf port a func (u32 (func + 4))) = _
  rw [u32_of_lt (by omega)]

theorem callOf_reaches (hsize : 4 ≤ img.size) (port : ℕ) :
    (∃ i func, IsLeast {i | ∃ f, Calls img port i f} i ∧ Calls img port i func ∧
      Reaches (placesPass img n) (.callOf port 4) (.path func)) ∨
    (∀ i func, ¬Calls img port i func) ∧
      Reaches (placesPass img n) (.callOf port 4) (.path 0) := by
  have hrun := reaches_word img (placesPass img n) (.callOf port) (b := 4)
    (P := fun a => ∃ f, Calls img port a f)
    (fun a ⟨_, h⟩ => ⟨h.1, h.2.1⟩) (dvd_refl 4) fun a hinstr hle hnot => ?_
  · rcases hrun with ⟨a, hleast, hreach⟩ | ⟨hnone, a, hend, hreach⟩
    · obtain ⟨func, hcalls⟩ := hleast.1
      obtain ⟨hinstr, hle, hword, hstart, hkept⟩ := hcalls
      have hpass := callOf_pass (n := n) hsize hinstr hword hstart
      refine .inl ⟨a, func, hleast, ⟨hinstr, hle, hword, hstart, hkept⟩, ?_⟩
      rcases bodyOf_reaches hsize (findFunctionStart_dvd hinstr.1 hstart) port a with
        ⟨hexcluded, -⟩ | ⟨-, hbody⟩
      · exact absurd hexcluded hkept
      · exact (hreach.tail hpass).trans hbody
    · refine .inr ⟨fun i func h => hnone i ⟨func, h⟩, hreach.tail ?_⟩
      show placesPass img n (.callOf port a) = _
      rw [placesPass, if_neg (fun h => ?_)]
      · rfl
      · exact absurd ((le_sub32_iff hsize).mp h) (Nat.not_le.mpr hend)
  · have hend := hinstr.2
    have hpos := (le_sub32_iff hsize).mpr hend
    by_cases hword : word img.code a = makeBranchLink a port
    · cases hstart : findFunctionStart img.code a with
      | none =>
        refine Relation.ReflTransGen.single ?_
        show placesPass img n (.callOf port a) = _
        rw [placesPass, if_pos hpos, if_neg (not_not.mpr hword), hstart]
        show Pass.next (Phase.callOf port (u32 (a + 4))) = _
        rw [u32_next hend]
      | some func =>
        have hpass := callOf_pass (n := n) hsize hinstr hword hstart
        rcases bodyOf_reaches (n := n) hsize (findFunctionStart_dvd hinstr.1 hstart) port a with
          ⟨-, hbody⟩ | ⟨hkept, -⟩
        · rw [u32_next hend] at hbody
          exact Relation.ReflTransGen.head hpass hbody
        · exact absurd ⟨func, hinstr, hle, hword, hstart, hkept⟩ hnot
    · refine Relation.ReflTransGen.single ?_
      show placesPass img n (.callOf port a) = _
      rw [placesPass, if_pos hpos, if_pos hword, u32_next hend]

end

/-! ## What is returned -/

section
variable {img : Image} {n p a : ℕ} {r : Bool × Places}

theorem Image.pages_lt (img : Image) : pages img.size < 0x100000000 ∧
    pages img.roSize < 0x100000000 ∧ pages img.dataSize < 0x100000000 := by
  have hfits := img.fits
  omega

theorem throwFatalError_unique {f g : ℕ} (hf : ThrowFatalError img f) (hg : ThrowFatalError img g) :
    f = g := by
  obtain ⟨port, i, hport, hi, hcalls⟩ := hf
  obtain ⟨port', i', hport', hi', hcalls'⟩ := hg
  have hsame : port + 4 = port' + 4 := hport.unique hport'
  obtain rfl : port = port' := Nat.add_right_cancel hsame
  obtain rfl : i = i' := hi.unique hi'
  exact Option.some.inj (hcalls.2.2.2.1.symm.trans hcalls'.2.2.2.1)

theorem strSpace_unique {f g : ℕ} (hf : StrSpace img f) (hg : StrSpace img g) : f = g := by
  obtain ⟨a, ha, hstart⟩ := hf
  obtain ⟨b, hb, hstart'⟩ := hg
  obtain rfl : a = b := ha.unique hb
  exact Option.some.inj (hstart.symm.trans hstart')

theorem strSpace_add_lt {f : ℕ} (hf : StrSpace img f) : f + 8 ≤ img.size := by
  obtain ⟨a, ha, hstart⟩ := hf
  have hlt := findFunctionStart_lt hstart
  have hend := ha.1.1.2
  omega

theorem throwFatalError_add_lt {f : ℕ} (hf : ThrowFatalError img f) : f + 8 ≤ img.size := by
  obtain ⟨port, i, -, -, hcalls⟩ := hf
  have hlt := findFunctionStart_lt hcalls.2.2.2.1
  have hend := hcalls.1.2
  omega

/-- The offset is one where there is room, or else zero. -/
def OffsetOf (At : ℕ → Prop) (p : ℕ) : Prop := (p ≠ 0 → At p) ∧ ∀ g, At g → p = g

theorem offsetOf_zero {At : ℕ → Prop} (h : ∀ g, ¬At g) : OffsetOf At 0 :=
  ⟨fun h => absurd rfl h, fun g hg => absurd hg (h g)⟩

theorem payload_reaches (hsize : 4 ≤ img.size) (n : ℕ) :
    ∃ p, Reaches (placesPass img n) .text (.path p) ∧ OffsetOf (PayloadAt img n) p := by
  have hpadding := sub32_rounded img.pages_lt.1
  by_cases hpad : n ≤ padding img.size
  · refine ⟨img.size, Relation.ReflTransGen.single ?_, fun _ => ?_, fun g hg => ?_⟩
    · show placesPass img n .text = _
      rw [placesPass, hpadding, if_pos hpad]
    · rw [PayloadAt, if_pos hpad]
    · rw [PayloadAt, if_pos hpad] at hg
      exact hg.symm
  · have hpass : placesPass img n .text = .next (.connectToPort 4) := by
      rw [placesPass, hpadding, if_neg hpad]
    have hat (g : ℕ) : PayloadAt img n g ↔ ThrowFatalError img g := by
      rw [PayloadAt, if_neg hpad]
    rcases connectToPort_reaches (n := n) hsize with ⟨port, hport, hreach⟩ | ⟨hnone, hreach⟩
    · have hstart : Reaches (placesPass img n) .text (.callOf port 4) :=
        Relation.ReflTransGen.head hpass hreach
      rcases callOf_reaches (n := n) hsize port with
        ⟨i, func, hi, hcalls, hcall⟩ | ⟨hnone, hcall⟩
      · have hfunc : ThrowFatalError img func := ⟨port, i, hport, hi, hcalls⟩
        refine ⟨func, hstart.trans hcall, fun _ => (hat func).mpr hfunc, fun g hg => ?_⟩
        exact throwFatalError_unique hfunc ((hat g).mp hg)
      · refine ⟨0, hstart.trans hcall, offsetOf_zero fun g hg => ?_⟩
        obtain ⟨port', i, hport', hi, hcalls⟩ := (hat g).mp hg
        have hsame : port + 4 = port' + 4 := hport.unique hport'
        obtain rfl : port = port' := Nat.add_right_cancel hsame
        exact hnone i g hcalls
    · refine ⟨0, Relation.ReflTransGen.head hpass hreach, offsetOf_zero fun g hg => ?_⟩
      obtain ⟨port, -, hport, -⟩ := (hat g).mp hg
      exact hnone port hport

theorem strSpace_returns (hsize : 4 ≤ img.size) (n p : ℕ) :
    ∃ q : Places, Returns (placesPass img n) (.strSpace p 0) q.verdict ∧ q.payloadOffset = p ∧
      OffsetOf (StrSpace img) q.pathOffset := by
  have hrun := reaches_word img (placesPass img n) (.strSpace p) (b := 0)
    (P := fun a => Instr img a ∧ word img.code a = strSpaceWord ∧
      ∃ f, findFunctionStart img.code a = some f)
    (fun a ha => ⟨ha.1, Nat.zero_le a⟩) (Nat.dvd_zero 4) fun a hinstr _ hnot => ?_
  · rcases hrun with ⟨a, hleast, hreach⟩ | ⟨hnone, a, hend, hreach⟩
    · obtain ⟨hinstr, hword, f, hstart⟩ := hleast.1
      have hf : StrSpace img f := ⟨a, hleast, hstart⟩
      refine ⟨⟨p, f, u32 (0x100000 + f)⟩, ⟨_, hreach, ?_⟩, rfl, fun _ => hf,
        fun g hg => strSpace_unique hf hg⟩
      rw [placesPass, if_pos ((le_sub32_iff hsize).mpr hinstr.2), if_pos hword, hstart]
    · refine ⟨{ unset with payloadOffset := p }, ⟨_, hreach, ?_⟩, rfl, offsetOf_zero fun g hg => ?_⟩
      · rw [placesPass, if_neg (fun h => ?_)]
        exact absurd ((le_sub32_iff hsize).mp h) (Nat.not_le.mpr hend)
      · obtain ⟨a, ha, -⟩ := hg
        exact hnone a ha.1
  · have hend := hinstr.2
    have hpos := (le_sub32_iff hsize).mpr hend
    refine Relation.ReflTransGen.single ?_
    show placesPass img n (.strSpace p a) = _
    by_cases hword : word img.code a = strSpaceWord
    · have hstart : findFunctionStart img.code a = none :=
        Option.eq_none_iff_forall_ne_some.mpr fun f hf => hnot ⟨hinstr, hword, f, hf⟩
      rw [placesPass, if_pos hpos, if_pos hword, hstart]
      show Pass.next (Phase.strSpace p (u32 (a + 4))) = _
      rw [u32_next hend]
    · rw [placesPass, if_pos hpos, if_neg hword, u32_next hend]

theorem path_returns (hsize : 4 ≤ img.size) (n p : ℕ) :
    ∃ q : Places, Returns (placesPass img n) (.path p) q.verdict ∧ q.payloadOffset = p ∧
      OffsetOf (PathAt img) q.pathOffset := by
  have hfits := img.fits
  obtain ⟨htext, hro, hdata⟩ := img.pages_lt
  have hroLe := le_pages img.roSize
  have hdataLe := le_pages img.dataSize
  have hpass : placesPass img n (.path p) =
      if pathSize ≤ padding img.roSize then .done (roPlaces img p).verdict
      else if pathSize ≤ padding img.dataSize then .done (dataPlaces img p).verdict
      else .next (.strSpace p 0) := by
    rw [placesPass, sub32_rounded hro, sub32_rounded hdata]
  unfold OffsetOf PathAt
  split_ifs at hpass ⊢ with hpadRo hpadData
  · have hq : (roPlaces img p).pathOffset = pages img.size + img.roSize := by
      show u32 (rounded img.size + img.roSize) = _
      rw [rounded_eq htext, u32_of_lt (by omega)]
    exact ⟨roPlaces img p, .of_done hpass, rfl, fun _ => hq, fun g hg => hq.trans hg.symm⟩
  · have hq : (dataPlaces img p).pathOffset =
        pages img.size + pages img.roSize + img.dataSize := by
      show u32 (rounded img.size + rounded img.roSize + img.dataSize) = _
      rw [rounded_eq htext, rounded_eq hro, u32_of_lt (by omega)]
    exact ⟨dataPlaces img p, .of_done hpass, rfl, fun _ => hq, fun g hg => hq.trans hg.symm⟩
  · obtain ⟨q, hq, hrest⟩ := strSpace_returns hsize n p
    exact ⟨q, hq.of_reaches (Relation.ReflTransGen.single hpass), hrest⟩

theorem places_return (hsize : 4 ≤ img.size) (n : ℕ) :
    ∃ q : Places, FindLayeredFsPayloadOffset img n q.verdict ∧
      OffsetOf (PayloadAt img n) q.payloadOffset ∧ OffsetOf (PathAt img) q.pathOffset := by
  obtain ⟨p, hreach, hp⟩ := payload_reaches hsize n
  obtain ⟨q, hret, rfl, hq⟩ := path_returns hsize n p
  exact ⟨q, hret.of_reaches hreach, hp, hq⟩

/-! ## What is read -/

/-- The function reads the image only. -/
def PlacesReadsWithin (img : Image) (romfsRedirPatchSize : ℕ) : Prop :=
  Guarded (placesPass img romfsRedirPatchSize) (fun s => ∀ r ∈ placesReads img s, r.Within img.size)
    .text

theorem placesReads_within (hsize : 4 ≤ img.size) (s : Phase) :
    ∀ r ∈ placesReads img s, r.Within img.size := by
  intro r hr
  cases s with
  | text => exact absurd hr List.not_mem_nil
  | connectToPort addr =>
    rw [placesReads] at hr
    split_ifs at hr with haddr
    · obtain rfl := List.mem_singleton.mp hr
      exact (le_sub32_iff hsize).mp haddr
    · exact absurd hr List.not_mem_nil
  | callOf port i =>
    rw [placesReads] at hr
    split_ifs at hr with hi hword
    · obtain rfl := List.mem_singleton.mp hr
      exact (le_sub32_iff hsize).mp hi
    · have hend := (le_sub32_iff hsize).mp hi
      rcases List.mem_cons.mp hr with rfl | hr
      · exact hend
      · exact functionStartReads_within _ (by omega) r hr
    · exact absurd hr List.not_mem_nil
  | bodyOf port i func pos =>
    rw [placesReads] at hr
    split_ifs at hr with hpos hhalf
    · have hend := (le_sub32_iff hsize).mp hpos
      rcases List.mem_cons.mp hr with rfl | hr
      · exact hend
      · obtain rfl := List.mem_singleton.mp hr
        exact hend
    · obtain rfl := List.mem_singleton.mp hr
      exact (le_sub32_iff hsize).mp hpos
    · exact absurd hr List.not_mem_nil
  | path p => exact absurd hr List.not_mem_nil
  | strSpace p addr =>
    rw [placesReads] at hr
    split_ifs at hr with haddr hword
    · have hend := (le_sub32_iff hsize).mp haddr
      rcases List.mem_cons.mp hr with rfl | hr
      · exact hend
      · exact functionStartReads_within _ (by omega) r hr
    · obtain rfl := List.mem_singleton.mp hr
      exact (le_sub32_iff hsize).mp haddr
    · exact absurd hr List.not_mem_nil

end

/-! ## The placement -/

section
variable {img : Image} {n p q : ℕ}

/-- Both functions read the image only, and where both succeed there is room for the payload and
for the path. -/
def PlacementSafe (img : Image) (romfsRedirPatchSize : ℕ) : Prop :=
  SymbolReadsWithin img ∧ PlacesReadsWithin img romfsRedirPatchSize ∧
    ∀ symbols places, FindLayeredFsSymbols img (true, symbols) →
      FindLayeredFsPayloadOffset img romfsRedirPatchSize (true, places) →
        Apart img romfsRedirPatchSize places.payloadOffset places.pathOffset

theorem size_add_padding (n : ℕ) : n + padding n = pages n := Nat.add_sub_cancel' (le_pages n)

theorem pathAt_padded (hpadded : PathPadded img) (hq : PathAt img q) :
    pages img.size ≤ q ∧ q + pathSize ≤ img.mapped := by
  have hro := size_add_padding img.roSize
  have hdata := size_add_padding img.dataSize
  unfold Image.mapped
  unfold PathAt at hq
  split_ifs at hq with hpadRo hpadData
  · omega
  · omega
  · exact absurd hpadded (not_or_intro hpadRo hpadData)

theorem pathAt_iff_strSpace (hpadded : ¬PathPadded img) : PathAt img q ↔ StrSpace img q := by
  obtain ⟨hro, hdata⟩ := not_or.mp hpadded
  rw [PathAt, if_neg hro, if_neg hdata]

theorem payloadAt_iff_throwFatalError (hpad : ¬n ≤ padding img.size) :
    PayloadAt img n p ↔ ThrowFatalError img p := by
  rw [PayloadAt, if_neg hpad]

theorem leavesRoom_iff : LeavesRoom img n ↔
    ∀ p q, PayloadAt img n p → PathAt img q → p ≠ 0 → q ≠ 0 → Apart img n p q := by
  have htext := size_add_padding img.size
  constructor
  · intro hroom p q hp hq hp0 hq0
    by_cases hpad : n ≤ padding img.size
    · obtain rfl : p = img.size := by rwa [PayloadAt, if_pos hpad] at hp
      have hend : img.size + n ≤ pages img.size := by omega
      have hmapped : pages img.size ≤ img.mapped := by
        unfold Image.mapped
        omega
      by_cases hpadded : PathPadded img
      · obtain ⟨hlo, hhi⟩ := pathAt_padded hpadded hq
        exact ⟨hend.trans hmapped, hhi, fun x _ hx hqx _ => by omega⟩
      · obtain ⟨hfree, hhi⟩ := hroom.path hpad hpadded q ((pathAt_iff_strSpace hpadded).mp hq) hq0
        exact ⟨hend.trans hmapped, hhi, fun x hpx hx _ hxq => by omega⟩
    · have hfunc := (payloadAt_iff_throwFatalError hpad).mp hp
      by_cases hpadded : PathPadded img
      · obtain ⟨-, hhi⟩ := pathAt_padded hpadded hq
        have hle := hroom.payload hpad hpadded p hfunc hp0 q hq
        exact ⟨by omega, hhi, fun x _ hx hqx _ => by omega⟩
      · obtain ⟨hfree, hlo, hhi⟩ := hroom.both hpad hpadded p q hfunc
          ((pathAt_iff_strSpace hpadded).mp hq) hp0 hq0
        exact ⟨hlo, hhi, fun x hpx hx hqx hxq => by omega⟩
  · intro h
    refine ⟨fun hpad hpadded f hf hf0 => ?_, fun hpad hpadded f hf hf0 q hq => ?_,
      fun hpad hpadded f g hf hg hf0 hg0 => ?_⟩
    · have hlt := strSpace_add_lt hf
      have hp : PayloadAt img n img.size := by rw [PayloadAt, if_pos hpad]
      obtain ⟨-, hhi, hfree⟩ :=
        h img.size f hp ((pathAt_iff_strSpace hpadded).mpr hf) (by omega) hf0
      have hlast := hfree img.size le_rfl
      exact ⟨by omega, hhi⟩
    · have hlt := throwFatalError_add_lt hf
      obtain ⟨hlo, -⟩ := pathAt_padded hpadded hq
      obtain ⟨-, -, hfree⟩ :=
        h f q ((payloadAt_iff_throwFatalError hpad).mpr hf) hq hf0 (by omega)
      by_contra hover
      exact hfree q (by omega) (by omega) le_rfl (Nat.lt_add_of_pos_right (by decide))
    · obtain ⟨hlo, hhi, hfree⟩ := h f g ((payloadAt_iff_throwFatalError hpad).mpr hf)
        ((pathAt_iff_strSpace hpadded).mpr hg) hf0 hg0
      have hpath : 0 < pathSize := by decide
      have hmax := hfree (max f g)
      exact ⟨by omega, hlo, hhi⟩

theorem verdict_places {q : Places} : q.verdict.1 = true ↔ q.payloadOffset ≠ 0 ∧ q.pathOffset ≠ 0 :=
  decide_eq_true_iff

/-- The functions stay inside the image, and there is room for what they place, exactly where the
image has a word, no case of the search is cut off by its end, and the functions that are replaced
leave the room. -/
theorem placement_iff (img : Image) (romfsRedirPatchSize : ℕ) :
    PlacementSafe img romfsRedirPatchSize ↔ 4 ≤ img.size ∧ NoneTruncated img ∧
      (HasSymbols img → LeavesRoom img romfsRedirPatchSize) := by
  unfold PlacementSafe
  rw [symbolReadsWithin_iff, and_assoc]
  refine and_congr_right fun hsize => and_congr_right fun hno => ?_
  have hwithin : PlacesReadsWithin img romfsRedirPatchSize :=
    fun s _ => placesReads_within hsize s
  rw [and_iff_right hwithin, leavesRoom_iff]
  obtain ⟨⟨success, symbols⟩, hsymbols, hfound⟩ := symbols_return hsize hno
  obtain ⟨places, hplaces, hpayload, hpath⟩ := places_return hsize romfsRedirPatchSize
  constructor
  · intro h hhas p q hp hq hp0 hq0
    obtain rfl := hpayload.2 p hp
    obtain rfl := hpath.2 q hq
    obtain rfl : success = true := hfound.mpr hhas
    have hverdict : places.verdict = (true, places) :=
      Prod.ext (verdict_places.mpr ⟨hp0, hq0⟩) rfl
    rw [hverdict] at hplaces
    exact h symbols places hsymbols hplaces
  · intro h symbols' places' hsymbols' hplaces'
    cases hsymbols.unique hsymbols'
    have hsame : places.verdict = (true, places') := hplaces.unique hplaces'
    obtain rfl : places = places' := congrArg Prod.snd hsame
    obtain ⟨hp0, hq0⟩ := verdict_places.mp (congrArg Prod.fst hsame)
    exact h (hfound.mp rfl) _ _ (hpayload.1 hp0) (hpath.1 hq0) hp0 hq0

/-- A file system library at its shortest, and a last function of two words. Nothing is free behind
the read-only data and the data. -/
def shortCode : List UInt8 :=
  [0xE92D4000, 0xE351003A, 0x1AFFFFFC, 0xE5970010, 0xE1CD20D8, 0x8D0000, 0xE3500008,
    0xE1800400, 0xE1800FC0, 0x8030204, 0, 0, 0, 0, 0xE590C000, 0, 0xE12FFF3C, 0xE92D4000,
    0xE3A00B42].flatMap (leBytes 4)

def shortImage : Image where
  code := fun a => shortCode.getD a 0
  size := 76
  roSize := 0x1000
  dataSize := 0x1000
  roAddress := 0x101000
  dataAddress := 0x102000
  fits := by decide

/-- The path begins at the last function and ends in the payload behind it. -/
theorem path_meets_payload :
    ¬∀ (img : Image) (romfsRedirPatchSize : ℕ), PlacementSafe img romfsRedirPatchSize := by
  intro h
  obtain ⟨-, -, hsafe⟩ := h shortImage 276
  have hsymbols : (resultWithin (symbolsPass shortImage) 20 symbolsStart).map Prod.fst =
      some true := by decide +kernel
  have hplaces : (resultWithin (placesPass shortImage 276) 40 .text).map
      (fun r => (r.1, r.2.payloadOffset, r.2.pathOffset)) = some (true, 76, 68) := by
    decide +kernel
  obtain ⟨⟨_, symbols⟩, hfound, rfl⟩ := Option.map_eq_some_iff.mp hsymbols
  obtain ⟨⟨success, places⟩, hreturned, hvalues⟩ := Option.map_eq_some_iff.mp hplaces
  obtain rfl : success = true := congrArg Prod.fst hvalues
  have hpayload : places.payloadOffset = 76 := congrArg (fun v => v.2.1) hvalues
  have hpath : places.pathOffset = 68 := congrArg (fun v => v.2.2) hvalues
  obtain ⟨-, -, hfree⟩ := hsafe symbols places (returns_of_resultWithin hfound)
    (returns_of_resultWithin hreturned)
  rw [hpayload, hpath] at hfree
  exact hfree 76 (by decide) (by decide) (by decide) (by decide)

end

end Presence3DS.Loader.LayeredFs
