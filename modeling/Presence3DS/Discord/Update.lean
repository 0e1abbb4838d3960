import Mathlib.Data.List.Lex
import Presence3DS.Discord.Script

/-! Update detection (`discord_update.c`): the marker `.upd` on the SD card, and the versions that
the server advertises in its login replies. -/

namespace Presence3DS.Discord
open CString Decimal

/-! ## The order of versions -/

/-- The digits at the cursor, in 32 bits, after those already read, and what follows them. -/
def readComponent : UInt32 → Bytes → UInt32 × Bytes
  | v, [] => (v, [])
  | v, c :: s => if isDigit c then readComponent (v * 10 + (c.toUInt32 - 0x30)) s else (v, c :: s)

/-- The components that are left of `out`, from the cursor. -/
def parseComponents : ℕ → Bytes → List UInt32
  | 0, _ => []
  | left + 1, s =>
    if s = [] then List.replicate (left + 1) 0
    else
      let (v, s) := readComponent 0 s
      if s.head? = some 0x2E then v :: parseComponents left s.tail
      else v :: List.replicate left 0

def parseVerComponents (s : Bytes) : List UInt32 :=
  parseComponents 3 ((str s).dropWhile fun c => !isDigit c)

/-- The first component that differs decides. -/
def compareComponents : List UInt32 → List UInt32 → Int
  | a :: va, b :: vb => if a ≠ b then (if a < b then -1 else 1) else compareComponents va vb
  | _, _ => 0

def discordUpdateCompareVersions (a b : Bytes) : Int :=
  compareComponents (parseVerComponents a) (parseVerComponents b)

/-! ## The marker -/

def isTrailing (c : UInt8) : Bool := c = 0x0D || c = 0x0A || c = 0x20 || c = 0x09

/-- The version that the file names; there is no file, or no version in it, without one. -/
def updReadFile (file : Option Bytes) (maxLen : ℕ) : Option Bytes :=
  file.bind fun content =>
    let ver := (str (content.take (maxLen - 1))).rdropWhile isTrailing
    if ver = [] then none else some ver

/-- The file on the card, `g_upd_available` and the version of the running build. -/
structure Update where
  file : Option Bytes
  available : Bool
  running : Bytes
deriving DecidableEq

namespace Update

def updWriteFile (u : Update) (ver : Bytes) : Update :=
  match updReadFile u.file 32 with
  | some cur =>
    if 0 ≤ discordUpdateCompareVersions cur ver then u else { u with file := some (str ver) }
  | none => { u with file := some (str ver) }

def updDeleteFile (u : Update) : Update := { u with file := none }

/-- A boot of the build `version`. -/
def discordUpdateInit (u : Update) (version : Bytes) : Update :=
  let u := { u with available := false, running := version }
  match updReadFile u.file 32 with
  | none => u
  | some ver =>
    if 0 < discordUpdateCompareVersions ver u.running then { u with available := true }
    else u.updDeleteFile

def discordUpdateCheckRemote (u : Update) (ver : Bytes) : Update :=
  if str ver = [] then u
  else if 0 < discordUpdateCompareVersions ver u.running then
    { u with available := true }.updWriteFile ver
  else { (if u.available then u.updDeleteFile else u) with available := false }

end Update

/-! ## Histories -/

def verField : Bytes := ascii ['v', 'e', 'r']

/-- The version that a login reply advertises, as `discord_login` reads it. -/
def advertisedVersion (resp : Bytes) : Option Bytes :=
  (discordParseField resp nonceField 32).bind fun _ => discordParseField resp verField 32

inductive UpdateEvent where
  | boot (version : Bytes)
  | login (resp : Bytes)
deriving DecidableEq

namespace Update

def step (u : Update) : UpdateEvent → Update
  | .boot version => u.discordUpdateInit version
  | .login resp => (advertisedVersion resp).elim u u.discordUpdateCheckRemote

/-- The version is newer than the running build. -/
def IsNewer (u : Update) (ver : Bytes) : Prop := 0 < discordUpdateCompareVersions ver u.running

instance (u : Update) (ver : Bytes) : Decidable (u.IsNewer ver) :=
  inferInstanceAs (Decidable (0 < _))

/-- The version that the file names, if any. -/
def named (u : Update) : Option Bytes := updReadFile u.file 32

end Update

/-- A history of the marker: the versions that were advertised since it was last removed, and
those of them that were newer than the build then running. -/
structure UpdateHistory where
  update : Update
  advertised : List Bytes
  offered : List Bytes
deriving DecidableEq

namespace UpdateHistory

def advertisedBy : UpdateEvent → List Bytes
  | .boot _ => []
  | .login resp => (advertisedVersion resp).toList

def step (h : UpdateHistory) (e : UpdateEvent) : UpdateHistory :=
  let update := h.update.step e
  if h.update.file.isSome ∧ update.file.isNone then ⟨update, [], []⟩
  else
    ⟨update, h.advertised ++ advertisedBy e,
      h.offered ++ (advertisedBy e).filter fun ver => h.update.IsNewer ver⟩

/-- The first boot, with the file that is on the card. -/
def boot (file : Option Bytes) (version : Bytes) : UpdateHistory :=
  let ver := (updReadFile file 32).toList
  step ⟨⟨file, false, version⟩, ver, ver⟩ (.boot version)

def run (h : UpdateHistory) (events : List UpdateEvent) : UpdateHistory := events.foldl step h

end UpdateHistory

/-- No boot runs an older build than the one before. -/
def Upgrades : Bytes → List UpdateEvent → Prop
  | _, [] => True
  | running, .boot version :: events =>
    0 ≤ discordUpdateCompareVersions version running ∧ Upgrades version events
  | running, .login _ :: events => Upgrades running events

/-- The version is one of the versions, but for white space at its end, and none is newer. -/
def IsNewest (ver : Bytes) (versions : List Bytes) : Prop :=
  (∃ v ∈ versions, v.rdropWhile isTrailing = ver) ∧
    ∀ v ∈ versions, discordUpdateCompareVersions v ver ≤ 0

/-! ## Comparison -/

theorem length_parseComponents (left : ℕ) (s : Bytes) : (parseComponents left s).length = left := by
  induction left generalizing s with
  | zero => rfl
  | succ left ih =>
    unfold parseComponents
    split_ifs
    · exact List.length_replicate
    · dsimp only
      split_ifs
      · rw [List.length_cons, ih]
      · rw [List.length_cons, List.length_replicate]

/-- The components of a version, as they are compared. -/
def versionKey (s : Bytes) : List ℕ := (parseVerComponents s).map UInt32.toNat

theorem compareComponents_eq {va vb : List UInt32} (h : va.length = vb.length) :
    compareComponents va vb =
      if va.map UInt32.toNat < vb.map UInt32.toNat then -1
      else if va.map UInt32.toNat = vb.map UInt32.toNat then 0 else 1 := by
  induction va generalizing vb with
  | nil =>
    rw [List.length_eq_zero_iff.mp h.symm]
    rfl
  | cons a va ih =>
    cases vb with
    | nil => cases h
    | cons b vb =>
      have ih := ih (Nat.succ_injective h)
      simp only [List.map_cons, List.cons_lt_cons_iff, List.cons.injEq]
      by_cases hab : a = b
      · subst hab
        simp only [compareComponents, ne_eq, not_true, if_false, lt_irrefl, true_and, false_or, ih]
      · have hne : a.toNat ≠ b.toNat := fun heq => hab (UInt32.toNat_inj.mp heq)
        simp only [compareComponents, ne_eq, hab, not_false_eq_true, if_true, hne, false_and,
          or_false, if_false, UInt32.lt_iff_toNat_lt]

theorem compareVersions_eq (a b : Bytes) :
    discordUpdateCompareVersions a b =
      if versionKey a < versionKey b then -1 else if versionKey a = versionKey b then 0 else 1 := by
  apply compareComponents_eq
  rw [parseVerComponents, parseVerComponents, length_parseComponents, length_parseComponents]

theorem compareVersions_pos {a b : Bytes} :
    0 < discordUpdateCompareVersions a b ↔ versionKey b < versionKey a := by
  rw [compareVersions_eq]
  rcases lt_trichotomy (versionKey a) (versionKey b) with h | h | h
  · simp [h, h.le]
  · simp [h]
  · simp [h.not_gt, h.ne', h]

theorem compareVersions_nonneg {a b : Bytes} :
    0 ≤ discordUpdateCompareVersions a b ↔ versionKey b ≤ versionKey a := by
  rw [compareVersions_eq]
  rcases lt_trichotomy (versionKey a) (versionKey b) with h | h | h
  · simp [h]
  · simp [h]
  · simp [h.not_gt, h.ne', h.le]

theorem compareVersions_nonpos {a b : Bytes} :
    discordUpdateCompareVersions a b ≤ 0 ↔ versionKey a ≤ versionKey b := by
  rw [← not_lt, compareVersions_pos, not_lt]

/-! ## The texts of versions -/

/-- A version as it is written: numbers with dots between them, the first of them behind any text
without digits, the last before any text that does not go on with a digit or a dot. -/
structure VersionText where
  lead : Bytes
  components : List Bytes
  tail : Bytes
  lead_plain : ∀ c ∈ lead, isDigit c = false
  digits : ∀ n ∈ components, ∀ c ∈ n, isDigit c = true
  first_digit : components.headD [] ≠ []
  tail_plain : ∀ c, tail.head? = some c → isDigit c = false ∧ c ≠ 0x2E
  no_nul : ∀ c ∈ lead ++ tail, c ≠ 0

namespace VersionText

def text (V : VersionText) : Bytes := V.lead ++ ([0x2E].intercalate V.components ++ V.tail)

/-- The number at a place; a missing one counts as 0. -/
def number (V : VersionText) (i : ℕ) : ℕ := readDigits 0 (V.components.getD i [])

/-- The first three numbers, ordered lexicographically. -/
def numbers (V : VersionText) : List ℕ := [V.number 0, V.number 1, V.number 2]

end VersionText

theorem readComponent_append {n rest : Bytes} (hn : ∀ c ∈ n, isDigit c = true)
    (hrest : ∀ c, rest.head? = some c → isDigit c = false) (a : ℕ) :
    readComponent (UInt32.ofNat a) (n ++ rest) = (UInt32.ofNat (readDigits a n), rest) := by
  induction n generalizing a with
  | nil =>
    cases rest with
    | nil => rfl
    | cons c rest =>
      rw [List.nil_append, readComponent, if_neg (by simp [hrest c rfl])]
      rfl
  | cons c n ih =>
    obtain ⟨hc, hn⟩ := List.forall_mem_cons.mp hn
    have hdigit : c.toUInt32 - 0x30 = UInt32.ofNat (c.toNat - 0x30) := by
      have hle := ((isDigit_iff c).mp hc).1
      rw [UInt32.ofNat_sub hle]
      simp
    rw [List.cons_append, readComponent, if_pos hc, readDigits, if_pos hc, ← ih hn]
    congr 1
    rw [hdigit, UInt32.ofNat_add, UInt32.ofNat_mul, UInt32.mul_comm]
    rfl

theorem numbers_cons (n : Bytes) (ns : List Bytes) (left : ℕ) :
    ((List.range (left + 1)).map fun i => UInt32.ofNat (readDigits 0 ((n :: ns).getD i []))) =
      UInt32.ofNat (readDigits 0 n) ::
        (List.range left).map fun i => UInt32.ofNat (readDigits 0 (ns.getD i [])) := by
  rw [List.range_succ_eq_map, List.map_cons, List.map_map]
  rfl

theorem numbers_nil (left : ℕ) :
    ((List.range left).map fun i => UInt32.ofNat (readDigits 0 (([] : List Bytes).getD i []))) =
      List.replicate left 0 := by
  rw [List.eq_replicate_iff, List.length_map, List.length_range]
  refine ⟨rfl, fun v hv => ?_⟩
  obtain ⟨i, -, rfl⟩ := List.mem_map.mp hv
  rfl

theorem parseComponents_eq {ns : List Bytes} {tail : Bytes}
    (hns : ∀ n ∈ ns, ∀ c ∈ n, isDigit c = true)
    (htail : ∀ c, tail.head? = some c → isDigit c = false ∧ c ≠ 0x2E) (hne : ns ≠ []) (left : ℕ) :
    parseComponents left ([0x2E].intercalate ns ++ tail) =
      (List.range left).map fun i => UInt32.ofNat (readDigits 0 (ns.getD i [])) := by
  induction left generalizing ns with
  | zero => rfl
  | succ left ih =>
    cases ns with
    | nil => exact absurd rfl hne
    | cons n ns =>
      obtain ⟨hn, hns⟩ := List.forall_mem_cons.mp hns
      rw [numbers_cons]
      cases ns with
      | nil =>
        -- the last number: what follows it is no dot
        have hread : readComponent 0 (n ++ tail) = (UInt32.ofNat (readDigits 0 n), tail) :=
          readComponent_append hn (fun c hc => (htail c hc).1) 0
        have hdot : tail.head? ≠ some 0x2E := fun hc => (htail _ hc).2 rfl
        rw [numbers_nil, List.intercalate_singleton, parseComponents]
        by_cases hempty : n ++ tail = []
        · rw [if_pos hempty, (List.append_eq_nil_iff.mp hempty).1]
          rfl
        · rw [if_neg hempty]
          simp only [hread, if_neg hdot]
      | cons m ns =>
        have hread : readComponent 0 (n ++ 0x2E :: ([0x2E].intercalate (m :: ns) ++ tail)) =
            (UInt32.ofNat (readDigits 0 n), 0x2E :: ([0x2E].intercalate (m :: ns) ++ tail)) :=
          readComponent_append hn (by rintro c ⟨⟩; rfl) 0
        have hsplit : [0x2E].intercalate (n :: m :: ns) ++ tail =
            n ++ 0x2E :: ([0x2E].intercalate (m :: ns) ++ tail) := by
          rw [List.intercalate_cons_cons]
          simp
        rw [hsplit, parseComponents, if_neg (by simp), ← ih hns (List.cons_ne_nil _ _)]
        simp only [hread, List.head?_cons, if_true, List.tail_cons]

theorem mem_intercalate {sep : UInt8} {ns : List Bytes} {c : UInt8}
    (h : c ∈ [sep].intercalate ns) : c = sep ∨ ∃ n ∈ ns, c ∈ n := by
  induction ns with
  | nil => cases h
  | cons n ns ih =>
    cases ns with
    | nil => exact .inr ⟨n, List.mem_singleton_self n, by simpa using h⟩
    | cons m ns =>
      rw [List.intercalate_cons_cons, List.mem_append, List.mem_append, List.mem_singleton] at h
      rcases h with (h | h) | h
      · exact .inr ⟨n, List.mem_cons_self, h⟩
      · exact .inl h
      · exact (ih h).imp_right fun ⟨k, hk, hc⟩ => ⟨k, List.mem_cons_of_mem n hk, hc⟩

theorem VersionText.str_text (V : VersionText) : str V.text = V.text := by
  apply List.takeWhile_eq_self_iff.mpr
  intro c hc
  rw [decide_eq_true_eq]
  rcases List.mem_append.mp hc with hc | hc
  · exact V.no_nul c (List.mem_append_left _ hc)
  · rcases List.mem_append.mp hc with hc | hc
    · rcases mem_intercalate hc with rfl | ⟨n, hn, hc⟩
      · decide
      · rintro rfl
        exact absurd (V.digits n hn 0 hc) (by decide)
    · exact V.no_nul c (List.mem_append_right _ hc)

theorem VersionText.dropWhile_text (V : VersionText) :
    (V.text.dropWhile fun c => !isDigit c) = [0x2E].intercalate V.components ++ V.tail := by
  have hlead : ∀ c ∈ V.lead, (!isDigit c) = true := fun c hc => by rw [V.lead_plain c hc]; rfl
  rw [VersionText.text, List.dropWhile_append_of_pos hlead]
  have hfirst := V.first_digit
  have hdigits := V.digits
  generalize V.components = components at hfirst hdigits ⊢
  rcases components with _ | ⟨_ | ⟨d, n⟩, ns⟩
  · exact absurd rfl hfirst
  · exact absurd rfl hfirst
  · have hd : isDigit d = true := hdigits _ List.mem_cons_self d List.mem_cons_self
    cases ns with
    | nil => simp [hd]
    | cons m ns => simp [List.intercalate_cons_cons, hd]

theorem parseVerComponents_text (V : VersionText) :
    parseVerComponents V.text = (List.range 3).map fun i => UInt32.ofNat (V.number i) := by
  have hne : V.components ≠ [] := fun h => V.first_digit (by rw [h]; rfl)
  rw [parseVerComponents, V.str_text, V.dropWhile_text]
  exact parseComponents_eq V.digits V.tail_plain hne 3

theorem versionKey_text {V : VersionText} (h : ∀ n ∈ V.numbers, n < 2 ^ 32) :
    versionKey V.text = V.numbers := by
  have hnumber : ∀ i < 3, (UInt32.ofNat (V.number i)).toNat = V.number i := by
    intro i hi
    apply UInt32.toNat_ofNat_of_lt'
    apply h
    interval_cases i <;> simp [VersionText.numbers]
  rw [versionKey, parseVerComponents_text]
  simp [List.range_succ_eq_map, hnumber, VersionText.numbers]

/-! ## White space behind a version -/

theorem readComponent_concat {c : UInt8} (hc : isDigit c = false) (s : Bytes) (v : UInt32) :
    readComponent v (s ++ [c]) = ((readComponent v s).1, (readComponent v s).2 ++ [c]) := by
  induction s generalizing v with
  | nil => simp [readComponent, hc]
  | cons d s ih =>
    rw [List.cons_append, readComponent, readComponent]
    split_ifs
    · exact ih _
    · rfl

theorem parseComponents_concat {c : UInt8} (hc : isDigit c = false) (hdot : c ≠ 0x2E) (left : ℕ)
    (s : Bytes) : parseComponents left (s ++ [c]) = parseComponents left s := by
  induction left generalizing s with
  | zero => rfl
  | succ left ih =>
    cases s with
    | nil => simp [parseComponents, readComponent, hc, hdot, List.replicate_succ]
    | cons d s =>
      rw [parseComponents, parseComponents, if_neg (by simp), if_neg (by simp),
        readComponent_concat hc]
      obtain ⟨v, rest⟩ := readComponent 0 (d :: s)
      cases rest with
      | nil => simp [hdot]
      | cons e rest => simp [ih]

theorem versionKey_concat {c : UInt8} (hc : isTrailing c = true) (s : Bytes) :
    versionKey (s ++ [c]) = versionKey s := by
  obtain ⟨hdigit, hdot, hnul⟩ : isDigit c = false ∧ c ≠ 0x2E ∧ c ≠ 0 := by
    simp only [isTrailing, Bool.or_eq_true, decide_eq_true_eq] at hc
    rcases hc with ((rfl | rfl) | rfl) | rfl <;> decide
  have hstr : str (s ++ [c]) = str s ++ [c] ∨ str (s ++ [c]) = str s := by
    rw [str, List.takeWhile_append]
    split_ifs with hwhole
    · left
      rw [List.takeWhile_cons_of_pos (by simpa using hnul), List.takeWhile_nil, str,
        (List.takeWhile_prefix _).eq_of_length hwhole]
    · exact .inr rfl
  rcases hstr with hstr | hstr
  · rw [versionKey, versionKey, parseVerComponents, parseVerComponents, hstr,
      List.dropWhile_append]
    split_ifs with hempty
    · rw [List.isEmpty_iff.mp hempty, List.dropWhile_cons_of_pos (by rw [hdigit]; rfl),
        List.dropWhile_nil]
    · rw [parseComponents_concat hdigit hdot]
  · rw [versionKey, parseVerComponents, hstr]
    rfl

theorem versionKey_rdropWhile (s : Bytes) :
    versionKey (s.rdropWhile isTrailing) = versionKey s := by
  induction s using List.reverseRecOn with
  | nil => rfl
  | append_singleton s c ih =>
    by_cases hc : isTrailing c = true
    · rw [List.rdropWhile_concat_pos _ _ _ hc, ih, versionKey_concat hc]
    · rw [List.rdropWhile_concat_neg _ _ _ hc]

/-! ## The marker along a history -/

theorem parseFrom_value {field v p : Bytes} {maxLen fuel : ℕ} {prev : Option UInt8}
    (h : parseFrom field maxLen fuel prev p = some v) : ∃ q, fieldValue q maxLen = some v := by
  induction fuel generalizing prev p with
  | zero => exact absurd h (Option.some_ne_none v).symm
  | succ fuel ih =>
    unfold parseFrom at h
    by_cases hprefix : field.isPrefixOf p = true
    · simp only [if_pos hprefix] at h
      split_ifs at h
      · exact ⟨_, h⟩
      · exact ih h
    · simp only [if_neg hprefix] at h
      cases p with
      | nil => exact absurd h (Option.some_ne_none v).symm
      | cons c p => exact ih h

theorem advertisedVersion_spec {resp ver : Bytes} (h : advertisedVersion resp = some ver) :
    ver ≠ [] ∧ ver.length ≤ 31 ∧ str ver = ver := by
  obtain ⟨-, -, hver⟩ := Option.bind_eq_some_iff.mp h
  obtain ⟨q, hvalue⟩ := parseFrom_value hver
  refine ⟨?_, (fieldValue_eq_some hvalue).2.1, ?_⟩
  · rintro rfl
    unfold fieldValue at hvalue
    simp only at hvalue
    split_ifs at hvalue with hempty
    exact hempty (Option.some.inj hvalue)
  · obtain ⟨i, hplace, -⟩ := parseField_place (by decide) hver
    apply List.takeWhile_eq_self_iff.mpr
    intro c hc
    rw [decide_eq_true_eq]
    refine @ne_zero_of_mem_str resp c (List.mem_of_mem_drop (hplace.subset ?_))
    exact List.mem_append_right _ (List.mem_cons_of_mem _ hc)

theorem versionKey_nil_le (s : Bytes) : versionKey [] ≤ versionKey s := by
  obtain ⟨a, b, c, habc⟩ : ∃ a b c, versionKey s = [a, b, c] := by
    apply List.length_eq_three.mp
    rw [versionKey, List.length_map, parseVerComponents, length_parseComponents]
  rw [habc, show versionKey [] = [0, 0, 0] from rfl, ← not_lt]
  simp [List.cons_lt_cons_iff]

/-- A version that is newer than another has a number in it, so the file it is written to names
it. -/
theorem updReadFile_written {ver other : Bytes} (hlength : ver.length ≤ 31) (hstr : str ver = ver)
    (h : versionKey other < versionKey ver) :
    updReadFile (some ver) 32 = some (ver.rdropWhile isTrailing) := by
  have hne : ver.rdropWhile isTrailing ≠ [] := by
    intro hempty
    rw [← versionKey_rdropWhile ver, hempty] at h
    exact absurd h (versionKey_nil_le other).not_gt
  simp only [updReadFile, Option.bind_some, List.take_of_length_le hlength, hstr, if_neg hne]

namespace UpdateHistory

/-- What an event does to a history. -/
inductive Changes (h : UpdateHistory) : UpdateEvent → UpdateHistory → Prop
  | unmarked (version : Bytes) (hnone : h.update.named = none) :
    Changes h (.boot version) { h with update := ⟨h.update.file, false, version⟩ }
  | pending (version : Bytes) {ver : Bytes} (hnamed : h.update.named = some ver)
    (hnewer : versionKey version < versionKey ver) :
    Changes h (.boot version) { h with update := ⟨h.update.file, true, version⟩ }
  | installed (version : Bytes) {ver : Bytes} (hnamed : h.update.named = some ver)
    (holder : versionKey ver ≤ versionKey version) :
    Changes h (.boot version) ⟨⟨none, false, version⟩, [], []⟩
  | silent (resp : Bytes) : Changes h (.login resp) h
  | withdrawn (resp : Bytes) (havailable : h.update.available = true) :
    Changes h (.login resp) ⟨⟨none, false, h.update.running⟩, [], []⟩
  | older (resp : Bytes) {ver : Bytes} (havailable : h.update.available = false)
    (holder : versionKey ver ≤ versionKey h.update.running) :
    Changes h (.login resp) ⟨h.update, h.advertised ++ [ver], h.offered⟩
  | known (resp : Bytes) {ver cur : Bytes}
    (hnewer : versionKey h.update.running < versionKey ver)
    (hnamed : h.update.named = some cur) (hle : versionKey ver ≤ versionKey cur) :
    Changes h (.login resp) ⟨⟨h.update.file, true, h.update.running⟩, h.advertised ++ [ver],
      h.offered ++ [ver]⟩
  | newest (resp : Bytes) {ver : Bytes} (hlength : ver.length ≤ 31) (hstr : str ver = ver)
    (hnewer : versionKey h.update.running < versionKey ver)
    (hlt : ∀ cur, h.update.named = some cur → versionKey cur < versionKey ver) :
    Changes h (.login resp) ⟨⟨some ver, true, h.update.running⟩, h.advertised ++ [ver],
      h.offered ++ [ver]⟩

theorem file_isSome_of_named {u : Update} {ver : Bytes} (h : u.named = some ver) :
    u.file.isSome = true := by
  obtain ⟨content, hfile, -⟩ := Option.bind_eq_some_iff.mp h
  rw [hfile]
  rfl

theorem step_of_kept {h : UpdateHistory} {e : UpdateEvent} {u : Update}
    (hupdate : h.update.step e = u) (hkept : h.update.file.isSome → u.file.isSome) :
    h.step e = ⟨u, h.advertised ++ advertisedBy e,
      h.offered ++ (advertisedBy e).filter fun ver => h.update.IsNewer ver⟩ := by
  rw [step, hupdate]
  apply if_neg
  rintro ⟨hsome, hnone⟩
  rw [Option.isNone_iff_eq_none.mp hnone] at hkept
  exact absurd (hkept hsome) (by decide)

theorem step_of_removed {h : UpdateHistory} {e : UpdateEvent} {u : Update}
    (hupdate : h.update.step e = u) (hfile : h.update.file.isSome = true) (hnone : u.file = none) :
    h.step e = ⟨u, [], []⟩ := by
  rw [step, hupdate]
  exact if_pos ⟨hfile, by rw [hnone]; rfl⟩

theorem step_boot (h : UpdateHistory) (version : Bytes) :
    h.Changes (.boot version) (h.step (.boot version)) := by
  have hlists : advertisedBy (.boot version) = [] := rfl
  cases hnamed : h.update.named with
  | none =>
    have hread : updReadFile h.update.file 32 = none := hnamed
    have hupdate : h.update.step (.boot version) = ⟨h.update.file, false, version⟩ := by
      simp only [Update.step, Update.discordUpdateInit, hread]
    rw [step_of_kept hupdate id, hlists, List.filter_nil, List.append_nil, List.append_nil]
    exact .unmarked version hnamed
  | some ver =>
    have hread : updReadFile h.update.file 32 = some ver := hnamed
    by_cases hnewer : 0 < discordUpdateCompareVersions ver version
    · have hupdate : h.update.step (.boot version) = ⟨h.update.file, true, version⟩ := by
        simp only [Update.step, Update.discordUpdateInit, hread, if_pos hnewer]
      rw [step_of_kept hupdate id, hlists, List.filter_nil, List.append_nil, List.append_nil]
      exact .pending version hnamed (compareVersions_pos.mp hnewer)
    · have hupdate : h.update.step (.boot version) = ⟨none, false, version⟩ := by
        simp only [Update.step, Update.discordUpdateInit, hread, if_neg hnewer,
          Update.updDeleteFile]
      rw [step_of_removed hupdate (file_isSome_of_named hnamed) rfl]
      exact .installed version hnamed (compareVersions_nonpos.mp (not_lt.mp hnewer))

theorem advertisedBy_login {resp ver : Bytes} (hver : advertisedVersion resp = some ver) :
    advertisedBy (.login resp) = [ver] := by
  rw [advertisedBy, hver]
  rfl

theorem update_login {h : UpdateHistory} {resp ver : Bytes}
    (hver : advertisedVersion resp = some ver) :
    h.update.step (.login resp) = h.update.discordUpdateCheckRemote ver := by
  rw [Update.step, hver]
  rfl

theorem step_newer {h : UpdateHistory} {resp ver : Bytes}
    (hver : advertisedVersion resp = some ver)
    (hnewer : 0 < discordUpdateCompareVersions ver h.update.running) :
    h.Changes (.login resp) (h.step (.login resp)) := by
  obtain ⟨hne, hlength, hstr⟩ := advertisedVersion_spec hver
  have hoffered : [ver].filter (fun v => decide (h.update.IsNewer v)) = [ver] :=
    List.filter_cons_of_pos (decide_eq_true hnewer)
  have hwrite : h.update.step (.login resp) =
      Update.updWriteFile { h.update with available := true } ver := by
    rw [update_login hver, Update.discordUpdateCheckRemote, hstr, if_neg hne, if_pos hnewer]
  by_cases hknown : ∃ cur, h.update.named = some cur ∧ versionKey ver ≤ versionKey cur
  · obtain ⟨cur, hnamed, hle⟩ := hknown
    have hread : updReadFile h.update.file 32 = some cur := hnamed
    have hupdate : h.update.step (.login resp) = ⟨h.update.file, true, h.update.running⟩ := by
      simp only [hwrite, Update.updWriteFile, hread, if_pos (compareVersions_nonneg.mpr hle)]
    rw [step_of_kept hupdate id, advertisedBy_login hver, hoffered]
    exact .known resp (compareVersions_pos.mp hnewer) hnamed hle
  · have hlt : ∀ cur, h.update.named = some cur → versionKey cur < versionKey ver :=
      fun cur hnamed => not_le.mp fun hle => hknown ⟨cur, hnamed, hle⟩
    have hupdate : h.update.step (.login resp) = ⟨some ver, true, h.update.running⟩ := by
      rw [hwrite, Update.updWriteFile, hstr]
      cases hread : updReadFile h.update.file 32 with
      | none => rfl
      | some cur =>
        have hless := (hlt cur hread).not_ge
        rw [← compareVersions_nonneg] at hless
        simp only [if_neg hless]
    rw [step_of_kept hupdate fun _ => rfl, advertisedBy_login hver, hoffered]
    exact .newest resp hlength hstr (compareVersions_pos.mp hnewer) hlt

theorem step_older {h : UpdateHistory} {resp ver : Bytes}
    (hmarked : h.update.available = true → h.update.file.isSome = true)
    (hver : advertisedVersion resp = some ver)
    (hnewer : ¬0 < discordUpdateCompareVersions ver h.update.running) :
    h.Changes (.login resp) (h.step (.login resp)) := by
  obtain ⟨hne, -, hstr⟩ := advertisedVersion_spec hver
  have hoffered : [ver].filter (fun v => decide (h.update.IsNewer v)) = [] :=
    List.filter_cons_of_neg fun h => hnewer (of_decide_eq_true h)
  have hclear : h.update.step (.login resp) =
      { (if h.update.available then h.update.updDeleteFile else h.update) with
        available := false } := by
    rw [update_login hver, Update.discordUpdateCheckRemote, hstr, if_neg hne, if_neg hnewer]
  cases havailable : h.update.available with
  | true =>
    rw [havailable, if_pos rfl] at hclear
    rw [step_of_removed hclear (hmarked havailable) rfl]
    exact .withdrawn resp havailable
  | false =>
    rw [havailable, if_neg (by decide), ← havailable] at hclear
    rw [step_of_kept hclear id, advertisedBy_login hver, hoffered, List.append_nil]
    exact .older resp havailable (compareVersions_nonpos.mp (not_lt.mp hnewer))

theorem step_changes {h : UpdateHistory}
    (hmarked : h.update.available = true → h.update.file.isSome = true) (e : UpdateEvent) :
    h.Changes e (h.step e) := by
  cases e with
  | boot version => exact step_boot h version
  | login resp =>
    cases hver : advertisedVersion resp with
    | none =>
      have hupdate : h.update.step (.login resp) = h.update := by
        rw [Update.step, hver]
        rfl
      rw [step_of_kept hupdate id, advertisedBy, hver]
      simpa using Changes.silent resp
    | some ver =>
      by_cases hnewer : 0 < discordUpdateCompareVersions ver h.update.running
      · exact step_newer hver hnewer
      · exact step_older hmarked hver hnewer

end UpdateHistory

theorem IsNewest.append_le {ver w : Bytes} {versions : List Bytes} (h : IsNewest ver versions)
    (hle : versionKey w ≤ versionKey ver) : IsNewest ver (versions ++ [w]) := by
  obtain ⟨⟨v, hv, hnamed⟩, hall⟩ := h
  refine ⟨⟨v, List.mem_append_left _ hv, hnamed⟩, fun u hu => ?_⟩
  rcases List.mem_append.mp hu with hu | hu
  · exact hall u hu
  · rw [List.mem_singleton.mp hu]
    exact compareVersions_nonpos.mpr hle

theorem isNewest_append {w : Bytes} {versions : List Bytes}
    (h : ∀ v ∈ versions, versionKey v ≤ versionKey w) :
    IsNewest (w.rdropWhile isTrailing) (versions ++ [w]) := by
  refine ⟨⟨w, by simp, rfl⟩, fun u hu => ?_⟩
  rw [compareVersions_nonpos, versionKey_rdropWhile]
  rcases List.mem_append.mp hu with hu | hu
  · exact h u hu
  · rw [List.mem_singleton.mp hu]

namespace UpdateHistory

/-- The file names the newest version of those offered, and none where none was offered. -/
structure Recorded (h : UpdateHistory) : Prop where
  newest : ∀ ver, h.update.named = some ver → IsNewest ver h.offered
  unnamed : h.update.named = none → h.offered = []
  subset : h.offered ⊆ h.advertised

/-- The file names a version exactly while an update is available, and a newer one than the
running build's. -/
structure Tracked (h : UpdateHistory) : Prop extends Recorded h where
  available_iff : h.update.available = true ↔ h.update.named.isSome = true
  newer : ∀ ver, h.update.named = some ver → versionKey h.update.running < versionKey ver

theorem Tracked.marked {h : UpdateHistory} (htracked : h.Tracked)
    (havailable : h.update.available = true) : h.update.file.isSome = true := by
  obtain ⟨ver, hver⟩ := Option.isSome_iff_exists.mp (htracked.available_iff.mp havailable)
  exact file_isSome_of_named hver

theorem tracked_removed (running : Bytes) : Tracked ⟨⟨none, false, running⟩, [], []⟩ where
  available_iff := by simp [Update.named, updReadFile]
  newer _ h := by cases h
  newest _ h := by cases h
  unnamed _ := rfl
  subset := List.Subset.refl _

theorem Changes.boot_tracked {h h' : UpdateHistory} {version : Bytes}
    (hchange : h.Changes (.boot version) h') (hrecorded : h.Recorded) : h'.Tracked := by
  obtain ⟨hnewest, hunnamed, hsubset⟩ := hrecorded
  cases hchange with
  | unmarked _ hnone =>
    refine ⟨⟨hnewest, hunnamed, hsubset⟩, iff_of_false Bool.false_ne_true ?_, ?_⟩
    · exact fun hsome => absurd hsome (by simp [Update.named, show updReadFile _ _ = _ from hnone])
    · exact fun ver hver => absurd (hnone.symm.trans hver) (Option.some_ne_none ver).symm
  | @pending _ ver hnamed hlt =>
    refine ⟨⟨hnewest, hunnamed, hsubset⟩,
      iff_of_true rfl (Option.isSome_iff_exists.mpr ⟨ver, hnamed⟩), ?_⟩
    intro ver' hver'
    rwa [Option.some.inj (Eq.trans (Eq.symm hver') hnamed)]
  | installed => exact tracked_removed version

theorem Changes.login_tracked {h h' : UpdateHistory} {resp : Bytes}
    (hchange : h.Changes (.login resp) h') (htracked : h.Tracked) : h'.Tracked := by
  obtain ⟨⟨hnewest, hunnamed, hsubset⟩, havail, hnewer⟩ := htracked
  have happend : ∀ ver, h.offered ++ [ver] ⊆ h.advertised ++ [ver] := fun ver =>
    List.append_subset.mpr ⟨fun v hv => List.mem_append_left _ (hsubset hv),
      List.subset_append_right _ _⟩
  cases hchange with
  | silent => exact ⟨⟨hnewest, hunnamed, hsubset⟩, havail, hnewer⟩
  | withdrawn => exact tracked_removed _
  | older =>
    exact ⟨⟨hnewest, hunnamed, fun v hv => List.mem_append_left _ (hsubset hv)⟩, havail, hnewer⟩
  | @known _ ver cur hlt hnamed hle =>
    refine ⟨⟨?_, ?_, happend ver⟩,
      iff_of_true rfl (Option.isSome_iff_exists.mpr ⟨cur, hnamed⟩), hnewer⟩
    · intro cur' hcur'
      obtain rfl := Option.some.inj (Eq.trans (Eq.symm hcur') hnamed)
      exact (hnewest _ hnamed).append_le hle
    · intro hnone
      exact absurd (hnamed.symm.trans hnone) (Option.some_ne_none cur)
  | @newest _ ver hlength hstr hlt hall =>
    have hnamed : updReadFile (some ver) 32 = some (ver.rdropWhile isTrailing) :=
      updReadFile_written hlength hstr hlt
    have holder : ∀ v ∈ h.offered, versionKey v ≤ versionKey ver := by
      intro v hv
      cases hcur : h.update.named with
      | none =>
        rw [hunnamed hcur] at hv
        cases hv
      | some cur =>
        calc versionKey v ≤ versionKey cur := compareVersions_nonpos.mp ((hnewest cur hcur).2 v hv)
          _ ≤ versionKey ver := (hall cur hcur).le
    refine ⟨⟨?_, ?_, happend ver⟩,
      iff_of_true rfl (Option.isSome_iff_exists.mpr ⟨_, hnamed⟩), ?_⟩
    · intro ver' hver'
      rw [← Option.some.inj (Eq.trans (Eq.symm hnamed) hver')]
      exact isNewest_append holder
    · intro hnone
      exact absurd (Eq.trans (Eq.symm hnamed) hnone) (Option.some_ne_none _)
    · intro ver' hver'
      rw [← Option.some.inj (Eq.trans (Eq.symm hnamed) hver'), versionKey_rdropWhile]
      exact hlt

theorem step_tracked {h : UpdateHistory} (htracked : h.Tracked) (e : UpdateEvent) :
    (h.step e).Tracked := by
  have hchange := step_changes htracked.marked e
  cases e with
  | boot version => exact hchange.boot_tracked htracked.toRecorded
  | login resp => exact hchange.login_tracked htracked

theorem run_tracked {h : UpdateHistory} (htracked : h.Tracked) (events : List UpdateEvent) :
    (run h events).Tracked := by
  induction events generalizing h with
  | nil => exact htracked
  | cons e events ih => exact ih (step_tracked htracked e)

/-- What was advertised but not offered is no newer than the running build. -/
def Settled (h : UpdateHistory) : Prop :=
  ∀ v ∈ h.advertised, v ∈ h.offered ∨ versionKey v ≤ versionKey h.update.running

theorem Changes.settled {h h' : UpdateHistory} {e : UpdateEvent} (hchange : h.Changes e h')
    (hsettled : h.Settled)
    (hboot : ∀ version, e = .boot version → versionKey h.update.running ≤ versionKey version) :
    h'.Settled := by
  have hnew : ∀ ver v, v ∈ h.advertised ++ [ver] →
      (v ∈ h.offered ++ [ver] ∨ versionKey v ≤ versionKey h.update.running) := by
    intro ver v hv
    rcases List.mem_append.mp hv with hv | hv
    · exact (hsettled v hv).imp_left (List.mem_append_left _)
    · exact .inl (List.mem_append_right _ hv)
  cases hchange with
  | unmarked version | pending version =>
    exact fun v hv => (hsettled v hv).imp_right fun hle => hle.trans (hboot version rfl)
  | installed | withdrawn => exact fun v hv => absurd hv List.not_mem_nil
  | silent => exact hsettled
  | @older resp ver havailable holder =>
    intro v hv
    rcases List.mem_append.mp hv with hv | hv
    · exact hsettled v hv
    · rw [List.mem_singleton.mp hv]
      exact .inr holder
  | known resp | newest resp => exact hnew _

theorem Changes.running {h h' : UpdateHistory} {resp : Bytes}
    (hchange : h.Changes (.login resp) h') : h'.update.running = h.update.running := by
  cases hchange <;> rfl

theorem Changes.booted {h h' : UpdateHistory} {version : Bytes}
    (hchange : h.Changes (.boot version) h') : h'.update.running = version := by
  cases hchange <;> rfl

theorem run_settled {h : UpdateHistory} (htracked : h.Tracked) (hsettled : h.Settled)
    {events : List UpdateEvent} (hupgrades : Upgrades h.update.running events) :
    (run h events).Settled := by
  induction events generalizing h with
  | nil => exact hsettled
  | cons e events ih =>
    have hchange := step_changes htracked.marked e
    refine ih (step_tracked htracked e) (hchange.settled hsettled ?_) ?_
    · rintro version rfl
      exact compareVersions_nonneg.mp hupgrades.1
    · cases e with
      | boot version =>
        rw [hchange.booted]
        exact hupgrades.2
      | login resp =>
        rw [hchange.running]
        exact hupgrades

theorem recorded_start (file : Option Bytes) (version : Bytes) :
    Recorded ⟨⟨file, false, version⟩, (updReadFile file 32).toList,
      (updReadFile file 32).toList⟩ where
  newest ver hver := by
    have hread : updReadFile file 32 = some ver := hver
    have hstripped : ver.rdropWhile isTrailing = ver := by
      obtain ⟨content, -, hcontent⟩ := Option.bind_eq_some_iff.mp hread
      simp only at hcontent
      split_ifs at hcontent
      obtain rfl := Option.some.inj hcontent
      exact List.rdropWhile_idempotent _ _
    rw [hread, Option.toList_some]
    simpa [hstripped] using @isNewest_append ver [] (by simp)
  unnamed hnone := by rw [show updReadFile file 32 = none from hnone, Option.toList_none]
  subset := List.Subset.refl _

theorem boot_tracked (file : Option Bytes) (version : Bytes) : (boot file version).Tracked :=
  (step_boot _ version).boot_tracked (recorded_start file version)

theorem boot_settled (file : Option Bytes) (version : Bytes) : (boot file version).Settled := by
  refine (step_boot _ version).settled (fun v hv => .inl hv) ?_
  rintro version' ⟨⟩
  exact le_refl (versionKey version)

theorem running_boot (file : Option Bytes) (version : Bytes) :
    (boot file version).update.running = version :=
  (step_boot _ version).booted

end UpdateHistory

/-- Along every history an update is available if and only if the file names a version newer than
the running build, and that is the newest of the versions offered since it was last removed; of
all those advertised, where no boot runs an older build. Versions are compared by their first
three numbers. -/
theorem discordUpdate_marker (file : Option Bytes) (version : Bytes) (events : List UpdateEvent) :
    let h := (UpdateHistory.boot file version).run events
    (h.update.available = true ↔ ∃ ver, h.update.named = some ver ∧ h.update.IsNewer ver) ∧
    (h.update.available = true → ∃ ver, h.update.named = some ver ∧ IsNewest ver h.offered) ∧
    (Upgrades version events → h.update.available = true →
      ∃ ver, h.update.named = some ver ∧ IsNewest ver h.advertised) ∧
    ∀ V W : VersionText, (∀ n ∈ V.numbers, n < 2 ^ 32) → (∀ n ∈ W.numbers, n < 2 ^ 32) →
      discordUpdateCompareVersions V.text W.text =
        if V.numbers < W.numbers then -1 else if V.numbers = W.numbers then 0 else 1 := by
  intro h
  have htracked : h.Tracked := UpdateHistory.run_tracked (UpdateHistory.boot_tracked file version) _
  have hnamed : h.update.available = true →
      ∃ ver, h.update.named = some ver ∧ IsNewest ver h.offered ∧ h.update.IsNewer ver := by
    intro havailable
    obtain ⟨ver, hver⟩ := Option.isSome_iff_exists.mp (htracked.available_iff.mp havailable)
    exact ⟨ver, hver, htracked.newest ver hver, compareVersions_pos.mpr (htracked.newer ver hver)⟩
  refine ⟨⟨fun havailable => ?_, ?_⟩, fun havailable => ?_, fun hupgrades havailable => ?_, ?_⟩
  · obtain ⟨ver, hver, -, hnewer⟩ := hnamed havailable
    exact ⟨ver, hver, hnewer⟩
  · rintro ⟨ver, hver, -⟩
    exact htracked.available_iff.mpr (Option.isSome_iff_exists.mpr ⟨ver, hver⟩)
  · obtain ⟨ver, hver, hnewest, -⟩ := hnamed havailable
    exact ⟨ver, hver, hnewest⟩
  · obtain ⟨ver, hver, ⟨⟨v, hv, hstrip⟩, hall⟩, hnewer⟩ := hnamed havailable
    have hsettled : h.Settled := UpdateHistory.run_settled
      (UpdateHistory.boot_tracked file version) (UpdateHistory.boot_settled file version)
      (by rwa [UpdateHistory.running_boot])
    refine ⟨ver, hver, ⟨v, htracked.subset hv, hstrip⟩, fun u hu => ?_⟩
    rcases hsettled u hu with hu | hle
    · exact hall u hu
    · exact compareVersions_nonpos.mpr (hle.trans (compareVersions_pos.mp hnewer).le)
  · intro V W hV hW
    rw [compareVersions_eq, versionKey_text hV, versionKey_text hW]

/-- A version that the build then running was not older than is not recorded, so after a return to
an older build the file may name an older version than one advertised before. -/
def downgraded : UpdateHistory :=
  (UpdateHistory.boot none (ascii ['v', '3'])).run
    [.login (ascii "nonce=1&ver=v2".toList), .boot (ascii ['v', '1']),
      .login (ascii "nonce=2&ver=v1.5".toList)]

theorem discordUpdate_marker_downgraded :
    ¬∀ (file : Option Bytes) (version : Bytes) (events : List UpdateEvent),
      let h := (UpdateHistory.boot file version).run events
      (h.update.available = true ↔ ∃ ver, h.update.named = some ver ∧ h.update.IsNewer ver) ∧
      (h.update.available = true →
        ∃ ver, h.update.named = some ver ∧ IsNewest ver h.advertised) := by
  intro hall
  have havailable : downgraded.update.available = true := by decide +kernel
  obtain ⟨ver, hver, -, hle⟩ := (hall none (ascii ['v', '3']) _).2 havailable
  have hnamed : downgraded.update.named = some (ascii "v1.5".toList) := by decide +kernel
  obtain rfl := Option.some.inj (Eq.trans (Eq.symm hver) hnamed)
  have hadvertised : ascii ['v', '2'] ∈ downgraded.advertised := by decide +kernel
  exact absurd (hle _ hadvertised) (by decide +kernel)

end Presence3DS.Discord
