import Presence3DS.Loader.LayeredFs
import Mathlib.Data.List.Basic

/-! The search for the symbols: what it reads, and when it succeeds. -/

namespace Presence3DS.Loader.LayeredFs

open Loops RawMemory

/-! ## The image and its symbols -/

/-- The place of an instruction in the image. -/
def Instr (img : Image) (a : ℕ) : Prop := 4 ∣ a ∧ a + 4 ≤ img.size

/-- The words of a case stand at a place, and the image does not end in front of their last one. -/
def Stands (img : Image) (c : Candidate) (a : ℕ) : Prop :=
  word img.code a = c.first ∧ a + c.bound ≤ img.size ∧ ∀ t ∈ c.rest, t.Holds img.code a

/-- The words of the symbol stand at a place, behind the start of a function. -/
def NamedAt (img : Image) (symbol : Symbol) (a : ℕ) : Prop :=
  Instr img a ∧ (∃ c ∈ candidates, c.symbol = symbol ∧ Stands img c a) ∧
    ∃ start, findFunctionStart img.code a = some start

/-- All symbols that are needed are there. -/
def HasSymbols (img : Image) : Prop :=
  ∀ symbol, symbol ≠ .fsUnmountArchive → ∃ a, NamedAt img symbol a

/-- The words of a case that is longer than the image begin at a place, and those within the image
fit. -/
def Truncated (img : Image) (c : Candidate) (a : ℕ) : Prop :=
  word img.code a = c.first ∧ img.size < c.bound ∧
    ∃ pre t post, c.rest = pre ++ t :: post ∧ (∀ u ∈ pre, u.Holds img.code a) ∧
      img.size < a + 4 * t.index + 4

def NoneTruncated (img : Image) : Prop :=
  ∀ a, Instr img a → ∀ c ∈ candidates, ¬Truncated img c a

/-! ## Sizes and reads -/

section
variable {img : Image} {code : Memory} {a b n : ℕ} {c d : Candidate}

theorem Image.size_lt (img : Image) : img.size < 0xF0000001 := by
  have hfits := img.fits
  unfold pages at hfits
  omega

theorem u32_of_lt (h : a < 0x100000000) : u32 a = a := Nat.mod_eq_of_lt h

theorem sub32_of_le (h : b ≤ a) (ha : a < 0x100000000) : sub32 a b = a - b := by
  unfold sub32 u32
  omega

theorem le_sub32_iff (hsize : b ≤ img.size) : a ≤ sub32 img.size b ↔ a + b ≤ img.size := by
  have hlt := img.size_lt
  rw [sub32_of_le hsize (by omega)]
  omega

theorem functionStartReads_within (code : Memory) (h : a ≤ n) :
    ∀ r ∈ functionStartReads code a, r.Within n := by
  fun_induction functionStartReads code a with
  | case1 pos ih =>
    intro r hr
    rcases List.mem_cons.mp hr with rfl | hr
    · show pos + 2 + 2 ≤ n
      omega
    · split_ifs at hr with hpush
      · exact absurd hr List.not_mem_nil
      · exact ih (by omega) r hr
  | case2 => exact fun r hr => absurd hr List.not_mem_nil

theorem findFunctionStart_lt {start : ℕ} (h : findFunctionStart code a = some start) :
    start + 4 ≤ a := by
  fun_induction findFunctionStart code a with
  | case1 pos hpush => exact (Option.some.inj h) ▸ le_rfl
  | case2 pos hpush ih => exact (ih h).trans (Nat.le_add_right pos 4)
  | case3 => exact absurd h.symm (Option.some_ne_none start)

theorem findFunctionStart_dvd {start : ℕ} (ha : 4 ∣ a) (h : findFunctionStart code a = some start) :
    4 ∣ start := by
  fun_induction findFunctionStart code a with
  | case1 pos hpush => exact (Option.some.inj h) ▸ (Nat.dvd_add_left (dvd_refl 4)).mp ha
  | case2 pos hpush ih => exact ih ((Nat.dvd_add_left (dvd_refl 4)).mp ha) h
  | case3 => exact absurd h.symm (Option.some_ne_none start)

theorem mem_testReads {ts : List WordTest} {r : Access} : r ∈ testReads code a ts ↔
    ∃ pre t post, ts = pre ++ t :: post ∧ (∀ u ∈ pre, u.Holds code a) ∧
      r = ⟨a + 4 * t.index, 4⟩ := by
  induction ts with
  | nil =>
    refine iff_of_false List.not_mem_nil ?_
    rintro ⟨pre, t, post, h, -⟩
    exact List.append_ne_nil_of_right_ne_nil pre (List.cons_ne_nil t post) h.symm
  | cons u us ih =>
    rw [testReads, List.mem_cons]
    constructor
    · rintro (rfl | hr)
      · exact ⟨[], u, us, rfl, fun _ h => absurd h List.not_mem_nil, rfl⟩
      · split_ifs at hr with hu
        · obtain ⟨pre, t, post, rfl, hpre, rfl⟩ := ih.mp hr
          exact ⟨u :: pre, t, post, rfl, List.forall_mem_cons.mpr ⟨hu, hpre⟩, rfl⟩
        · exact absurd hr List.not_mem_nil
    · rintro ⟨pre, t, post, h, hpre, rfl⟩
      cases pre with
      | nil =>
        cases h
        exact .inl rfl
      | cons v pre =>
        cases h
        obtain ⟨hu, hpre⟩ := List.forall_mem_cons.mp hpre
        rw [if_pos hu]
        exact .inr (ih.mpr ⟨pre, t, post, rfl, hpre, rfl⟩)

/-! ## The cases of the switch -/

theorem candidate_of_first : ∀ c ∈ candidates, candidates.find? (fun d => d.first = c.first) =
    some c := by
  decide

theorem test_bound : ∀ c ∈ candidates, ∀ t ∈ c.rest, 4 * t.index + 4 ≤ c.bound := by
  decide

theorem last_test : ∀ c ∈ candidates, c.bound ≤ 4 ∨
    ∃ t ∈ c.rest.getLast?, 4 * t.index + 4 = c.bound := by
  decide

theorem bound_le : ∀ c ∈ candidates, c.bound ≤ 0x40 := by
  decide

theorem bounds_of_symbol : ∀ c ∈ candidates, ∀ d ∈ candidates, c.symbol = d.symbol →
    c.bound ≤ d.bound + 4 := by
  decide

theorem find_first {w : ℕ} : candidates.find? (fun c => c.first = w) = some c ↔
    c ∈ candidates ∧ c.first = w := by
  constructor
  · intro h
    exact ⟨List.mem_of_find?_eq_some h, by simpa using List.find?_some h⟩
  · rintro ⟨hc, rfl⟩
    exact candidate_of_first c hc

theorem truncated_of_tests (hsize : 4 ≤ img.size) (hc : c ∈ candidates)
    (hfirst : word img.code a = c.first) (hlt : img.size < c.bound)
    (htests : ∀ t ∈ c.rest, t.Holds img.code a) : Truncated img c a := by
  rcases last_test c hc with hle | ⟨t, ht, hbound⟩
  · omega
  · have hsplit := List.dropLast_append_getLast? t ht
    refine ⟨hfirst, hlt, c.rest.dropLast, t, [], hsplit.symm, fun u hu => ?_, by omega⟩
    exact htests u ((List.dropLast_sublist _).subset hu)

end

/-! ## One pass -/

section
variable {img : Image} {s : SymbolSearch} {c d : Candidate} {y : Symbol} {e v : ℕ}

theorem candidateAt_eq_some : candidateAt img s = some c ↔
    c ∈ candidates ∧ word img.code s.addr = c.first ∧ s.addr ≤ sub32 img.size c.bound ∧
      s.symbols c.symbol = none := by
  unfold candidateAt
  rw [Option.filter_eq_some_iff, find_first, decide_eq_true_iff, and_assoc, eq_comm (a := c.first)]

theorem symbolAt_eq_some (hinstr : Instr img s.addr)
    (hno : ∀ c ∈ candidates, ¬Truncated img c s.addr) : symbolAt img s = some (y, v) ↔
      (∃ c ∈ candidates, c.symbol = y ∧ Stands img c s.addr) ∧ s.symbols y = none ∧
        findFunctionStart img.code s.addr = some v := by
  have hsize : 4 ≤ img.size := (Nat.le_add_left 4 s.addr).trans hinstr.2
  unfold symbolAt
  constructor
  · intro h
    obtain ⟨c, hc, h⟩ := Option.bind_eq_some_iff.mp h
    obtain ⟨hmem, hfirst, hbound, hnone⟩ := candidateAt_eq_some.mp hc
    split_ifs at h with htests
    obtain ⟨start, hstart, hpair⟩ := Option.map_eq_some_iff.mp h
    cases hpair
    refine ⟨⟨c, hmem, rfl, hfirst, ?_, htests⟩, hnone, hstart⟩
    have hfits : c.bound ≤ img.size := Nat.le_of_not_lt fun hlt =>
      hno c hmem (truncated_of_tests hsize hmem hfirst hlt htests)
    exact (le_sub32_iff hfits).mp hbound
  · rintro ⟨⟨c, hmem, rfl, hfirst, hbound, htests⟩, hnone, hstart⟩
    have hfits : c.bound ≤ img.size := (Nat.le_add_left c.bound s.addr).trans hbound
    rw [candidateAt_eq_some.mpr ⟨hmem, hfirst, (le_sub32_iff hfits).mpr hbound, hnone⟩]
    show (if _ then _ else _) = _
    rw [if_pos htests, hstart]
    rfl

/-- How many of the symbols are found. -/
def foundCount (symbols : Symbol → Option ℕ) : ℕ :=
  Symbol.all.countP fun y => (symbols y).isSome

theorem foundCount_update {symbols : Symbol → Option ℕ} (h : symbols y = none) (v : ℕ) :
    foundCount (Function.update symbols y (some v)) = foundCount symbols + 1 := by
  cases y <;> simp [foundCount, Symbol.all, List.countP_cons, Function.update, h] <;> omega

/-- What is known of the search when all places before one have been looked at. -/
structure Searched (img : Image) (e : ℕ) (s : SymbolSearch) : Prop where
  counted : s.found = foundCount s.symbols
  found : ∀ y v, s.symbols y = some v → ∃ a < e, NamedAt img y a
  missed : ∀ y, s.symbols y = none → ∀ a < e, ¬NamedAt img y a

theorem searched_start (img : Image) : Searched img 0 symbolsStart :=
  ⟨rfl, fun _ _ h => absurd h.symm (Option.some_ne_none _), fun _ _ a h => absurd h a.not_lt_zero⟩

theorem symbol_unique {a : ℕ} {y y' : Symbol}
    (h : ∃ c ∈ candidates, c.symbol = y ∧ Stands img c a)
    (h' : ∃ c ∈ candidates, c.symbol = y' ∧ Stands img c a) : y = y' := by
  obtain ⟨c, hc, rfl, hstands, -⟩ := h
  obtain ⟨d, hd, rfl, hstands', -⟩ := h'
  have hsame := candidate_of_first c hc
  rw [← hstands, hstands', candidate_of_first d hd] at hsame
  rw [Option.some.inj hsame]

theorem Searched.pass_none (hs : Searched img s.addr s) (hinstr : Instr img s.addr)
    (hno : ∀ c ∈ candidates, ¬Truncated img c s.addr) (hat : symbolAt img s = none) :
    Searched img (s.addr + 4) s := by
  refine ⟨hs.counted, fun y v hv => ?_, fun y hy a ha hnamed => ?_⟩
  · obtain ⟨a, ha, hnamed⟩ := hs.found y v hv
    exact ⟨a, ha.trans (Nat.lt_add_of_pos_right (by decide)), hnamed⟩
  · rcases Nat.lt_or_ge a s.addr with hlt | hge
    · exact hs.missed y hy a hlt hnamed
    · obtain ⟨hinstr', hstands, start, hstart⟩ := hnamed
      have hdvd := hinstr.1
      have hdvd' := hinstr'.1
      obtain rfl : a = s.addr := by omega
      have hsome := (symbolAt_eq_some hinstr hno).mpr ⟨hstands, hy, hstart⟩
      rw [hat] at hsome
      exact Option.some_ne_none _ hsome.symm

theorem Searched.pass_some (hs : Searched img s.addr s) (hinstr : Instr img s.addr)
    (hno : ∀ c ∈ candidates, ¬Truncated img c s.addr) (hat : symbolAt img s = some (y, v)) :
    Searched img (s.addr + 4) (s.enter y v) := by
  obtain ⟨hstands, hnone, hstart⟩ := (symbolAt_eq_some hinstr hno).mp hat
  refine ⟨?_, fun y' v' hv => ?_, fun y' hy a ha hnamed => ?_⟩
  · show s.found + 1 = foundCount (Function.update s.symbols y (some v))
    rw [foundCount_update hnone, hs.counted]
  · rcases eq_or_ne y' y with rfl | hne
    · exact ⟨s.addr, Nat.lt_add_of_pos_right (by decide), hinstr, hstands, v, hstart⟩
    · have hv : Function.update s.symbols y (some v) y' = some v' := hv
      rw [Function.update_of_ne hne] at hv
      obtain ⟨a, ha, hnamed⟩ := hs.found y' v' hv
      exact ⟨a, ha.trans (Nat.lt_add_of_pos_right (by decide)), hnamed⟩
  · have hy : Function.update s.symbols y (some v) y' = none := hy
    have hne : y' ≠ y := by
      rintro rfl
      rw [Function.update_self] at hy
      exact Option.some_ne_none v hy
    rw [Function.update_of_ne hne] at hy
    rcases Nat.lt_or_ge a s.addr with hlt | hge
    · exact hs.missed y' hy a hlt hnamed
    · obtain ⟨hinstr', hstands', -⟩ := hnamed
      have hdvd := hinstr.1
      have hdvd' := hinstr'.1
      obtain rfl : a = s.addr := by omega
      exact hne (symbol_unique hstands' hstands)

theorem symbolsPass_step (hs : Searched img s.addr s) (hinstr : Instr img s.addr)
    (hno : ∀ c ∈ candidates, ¬Truncated img c s.addr) :
    (∃ t, symbolsPass img s = .next t ∧ t.addr = s.addr + 4 ∧ Searched img (s.addr + 4) t) ∨
    ∃ t, symbolsPass img s = .done t.verdict ∧ t.found = 5 ∧ Searched img (s.addr + 4) t := by
  have hlt := img.size_lt
  have hsize : 4 ≤ img.size := (Nat.le_add_left 4 s.addr).trans hinstr.2
  have hnext : u32 (s.addr + 4) = s.addr + 4 := u32_of_lt (by have := hinstr.2; omega)
  unfold symbolsPass
  rw [if_pos ((le_sub32_iff hsize).mpr hinstr.2)]
  cases hat : symbolAt img s with
  | none =>
    obtain ⟨hcounted, hfound, hmissed⟩ := hs.pass_none hinstr hno hat
    exact .inl ⟨s.next, rfl, hnext, hcounted, hfound, hmissed⟩
  | some found =>
    obtain ⟨y, v⟩ := found
    have henter := hs.pass_some hinstr hno hat
    dsimp only
    split_ifs with hfive
    · exact .inr ⟨s.enter y v, rfl, hfive, henter⟩
    · obtain ⟨hcounted, hfound, hmissed⟩ := henter
      exact .inl ⟨(s.enter y v).next, rfl, hnext, hcounted, hfound, hmissed⟩

end

/-! ## The whole search -/

section
variable {img : Image} {s : SymbolSearch} {c : Candidate} {y : Symbol} {e : ℕ}

theorem searched_upTo (he : 4 ∣ e) (hle : e ≤ img.size)
    (hno : ∀ a < e, Instr img a → ∀ c ∈ candidates, ¬Truncated img c a) :
    (∃ s, Reaches (symbolsPass img) symbolsStart s ∧ s.addr = e ∧ Searched img e s) ∨
    ∃ s, FindLayeredFsSymbols img s.verdict ∧ s.found = 5 ∧ ∃ e', Searched img e' s := by
  obtain ⟨k, rfl⟩ := he
  induction k with
  | zero => exact .inl ⟨symbolsStart, Relation.ReflTransGen.refl, rfl, searched_start img⟩
  | succ k ih =>
    rw [Nat.mul_succ] at hle hno ⊢
    rcases ih (by omega) (fun a ha => hno a (by omega)) with ⟨s, hreach, haddr, hs⟩ | hdone
    · have hinstr : Instr img (4 * k) := ⟨Nat.dvd_mul_right 4 k, hle⟩
      rw [← haddr] at hs hinstr
      rcases symbolsPass_step hs hinstr (hno _ (by omega) hinstr) with
        ⟨t, hpass, hat, ht⟩ | ⟨t, hpass, hfive, ht⟩
      · rw [haddr] at hat ht
        exact .inl ⟨t, hreach.tail hpass, hat, ht⟩
      · exact .inr ⟨t, ⟨s, hreach, hpass⟩, hfive, _, ht⟩
    · exact .inr hdone

theorem Searched.symbols_of_five (hs : Searched img e s) (hfive : s.found = 5) (y : Symbol) :
    s.symbols y ≠ none := by
  have hcount : Symbol.all.countP (fun y => (s.symbols y).isSome) = Symbol.all.length :=
    hs.counted.symm.trans hfive
  have hmem : y ∈ Symbol.all := by cases y <;> decide
  exact Option.isSome_iff_ne_none.mp (List.countP_eq_length.mp hcount y hmem)

theorem Searched.verdict_iff (hs : Searched img e s) :
    s.verdict.1 = true ↔ ∀ y, y ≠ .fsUnmountArchive → s.symbols y ≠ none := by
  have hcounted : s.found = foundCount s.symbols := hs.counted
  have hall : (∀ y, y ≠ .fsUnmountArchive → s.symbols y ≠ none) ↔
      s.symbols .fsMountArchive ≠ none ∧ s.symbols .fsRegisterArchive ≠ none ∧
        s.symbols .fsTryOpenFile ≠ none ∧ s.symbols .fsOpenFileDirectly ≠ none := by
    constructor
    · exact fun h => ⟨h _ (by decide), h _ (by decide), h _ (by decide), h _ (by decide)⟩
    · rintro ⟨hmount, hregister, htry, hopen⟩ y hy
      cases y <;> first | assumption | exact absurd rfl hy
  rw [hall, SymbolSearch.verdict, decide_eq_true_iff, hcounted, foundCount]
  simp only [Symbol.all, List.countP_cons, List.countP_nil, Option.isSome_iff_ne_none]
  split_ifs <;> simp_all

theorem Searched.missing_of_longer (hs : Searched img e s) (hc : c ∈ candidates)
    (hlt : img.size < c.bound) : s.symbols c.symbol = none := by
  by_contra hne
  obtain ⟨v, hv⟩ := Option.ne_none_iff_exists'.mp hne
  obtain ⟨a, -, -, ⟨d, hd, hsame, -, hfits, -⟩, start, hstart⟩ := hs.found _ v hv
  have hstart := findFunctionStart_lt hstart
  have hbounds := bounds_of_symbol c hc d hd hsame.symm
  omega

/-- The search reads the image only. -/
def SymbolReadsWithin (img : Image) : Prop :=
  Guarded (symbolsPass img) (fun s => ∀ r ∈ symbolsReads img s, r.Within img.size) symbolsStart

theorem addr_of_pass {t : SymbolSearch} (h : symbolsPass img s = .next t) :
    t.addr = u32 (s.addr + 4) := by
  unfold symbolsPass at h
  cases hat : symbolAt img s with
  | none =>
    rw [hat] at h
    dsimp only at h
    split_ifs at h
    cases h
    rfl
  | some found =>
    rw [hat] at h
    dsimp only at h
    split_ifs at h
    cases h
    rfl

theorem addr_dvd (h : Reaches (symbolsPass img) symbolsStart s) : 4 ∣ s.addr := by
  induction h with
  | refl => exact Nat.dvd_zero 4
  | tail _ hlast ih =>
    rw [addr_of_pass hlast]
    unfold u32
    omega

theorem symbolsReads_within (hsize : 4 ≤ img.size) (hno : NoneTruncated img) (hdvd : 4 ∣ s.addr) :
    ∀ r ∈ symbolsReads img s, r.Within img.size := by
  intro r hr
  unfold symbolsReads at hr
  split_ifs at hr with haddr
  · rw [le_sub32_iff hsize] at haddr
    have hinstr : Instr img s.addr := ⟨hdvd, haddr⟩
    rcases List.mem_cons.mp hr with rfl | hr
    · exact haddr
    · cases hat : candidateAt img s with
      | none =>
        rw [hat] at hr
        exact absurd hr List.not_mem_nil
      | some c =>
        rw [hat] at hr
        obtain ⟨hc, hfirst, hbound, -⟩ := candidateAt_eq_some.mp hat
        rcases List.mem_append.mp hr with hr | hr
        · obtain ⟨pre, t, post, hsplit, hpre, rfl⟩ := mem_testReads.mp hr
          show s.addr + 4 * t.index + 4 ≤ img.size
          by_contra hout
          rcases Nat.lt_or_ge img.size c.bound with hlt | hfits
          · exact hno _ hinstr c hc ⟨hfirst, hlt, pre, t, post, hsplit, hpre, Nat.not_le.mp hout⟩
          · have hlast := test_bound c hc t (hsplit ▸ List.mem_append_right _ List.mem_cons_self)
            have hend := (le_sub32_iff hfits).mp hbound
            omega
        · split_ifs at hr with htests
          · exact functionStartReads_within _ (by omega) r hr
          · exact absurd hr List.not_mem_nil
  · exact absurd hr List.not_mem_nil

theorem symbolReadsWithin_iff : SymbolReadsWithin img ↔ 4 ≤ img.size ∧ NoneTruncated img := by
  constructor
  · intro h
    have hsize : 4 ≤ img.size := by
      have hfirst : (⟨0, 4⟩ : Access) ∈ symbolsReads img symbolsStart := by
        rw [symbolsReads, symbolsStart, if_pos (Nat.zero_le _)]
        exact List.mem_cons_self
      exact h.here _ hfirst
    refine ⟨hsize, fun a => ?_⟩
    induction a using Nat.strong_induction_on with
    | _ a ih =>
      intro hinstr c hc htrunc
      obtain ⟨hfirst, hlt, pre, t, post, hsplit, hpre, hout⟩ := htrunc
      rcases searched_upTo hinstr.1 ((Nat.le_add_right a 4).trans hinstr.2) ih with
        ⟨s, hreach, rfl, hs⟩ | ⟨s, -, hfive, e, hs⟩
      · have hbound : s.addr ≤ sub32 img.size c.bound := by
          -- the difference wraps around
          have hle := bound_le c hc
          have hend := hinstr.2
          unfold sub32 u32
          omega
        have hat : candidateAt img s = some c :=
          candidateAt_eq_some.mpr ⟨hc, hfirst, hbound, hs.missing_of_longer hc hlt⟩
        have hread : (⟨s.addr + 4 * t.index, 4⟩ : Access) ∈ symbolsReads img s := by
          unfold symbolsReads
          rw [if_pos ((le_sub32_iff hsize).mpr hinstr.2), hat]
          refine List.mem_cons_of_mem _ (List.mem_append_left _ ?_)
          exact mem_testReads.mpr ⟨pre, t, post, hsplit, hpre, rfl⟩
        exact absurd (h s hreach _ hread) (Nat.not_le.mpr hout)
      · exact hs.symbols_of_five hfive c.symbol (hs.missing_of_longer hc hlt)
  · rintro ⟨hsize, hno⟩ s hreach
    exact symbolsReads_within hsize hno (addr_dvd hreach)

theorem symbols_return (hsize : 4 ≤ img.size) (hno : NoneTruncated img) :
    ∃ r, FindLayeredFsSymbols img r ∧ (r.1 = true ↔ HasSymbols img) := by
  rcases searched_upTo (e := img.size / 4 * 4) (Nat.dvd_mul_left 4 _) (Nat.div_mul_le_self _ 4)
    (fun a _ => hno a) with ⟨s, hreach, haddr, hs⟩ | ⟨s, hret, hfive, e, hs⟩
  · refine ⟨s.verdict, ⟨s, hreach, ?_⟩, hs.verdict_iff.trans ?_⟩
    · unfold symbolsPass
      rw [if_neg (fun h => ?_)]
      have hend := (le_sub32_iff hsize).mp h
      omega
    · refine forall₂_congr fun y _ => ⟨fun hne => ?_, ?_⟩
      · obtain ⟨v, hv⟩ := Option.ne_none_iff_exists'.mp hne
        obtain ⟨a, -, hnamed⟩ := hs.found y v hv
        exact ⟨a, hnamed⟩
      · rintro ⟨a, hnamed⟩ hnone
        have hin := hnamed.1
        have hdvd := hin.1
        have hend := hin.2
        exact hs.missed y hnone a (by omega) hnamed
  · have hall := hs.symbols_of_five hfive
    refine ⟨s.verdict, hret, iff_of_true (hs.verdict_iff.mpr fun y _ => hall y) fun y _ => ?_⟩
    obtain ⟨v, hv⟩ := Option.ne_none_iff_exists'.mp (hall y)
    obtain ⟨a, -, hnamed⟩ := hs.found y v hv
    exact ⟨a, hnamed⟩

end

end Presence3DS.Loader.LayeredFs
