import Presence3DS.Discord.Script

/-! The values that an activity reports of the running title (`discord_activity_tick`): the
configuration of `memory_config.c` and the mapping of `read_memory.c` that they are read through. -/

namespace Presence3DS.Discord
open CString Decimal

/-! ## The watched addresses -/

inductive AddressType where
  | b
  | h
  | w
deriving DecidableEq

structure AddressEntry where
  address : UInt32
  type : AddressType
deriving DecidableEq

def hexValue? (c : UInt8) : Option ℕ :=
  if isDigit c then some (c.toNat - 0x30)
  else if 0x61 ≤ c ∧ c ≤ 0x66 then some (c.toNat - 0x61 + 10)
  else if 0x41 ≤ c ∧ c ≤ 0x46 then some (c.toNat - 0x41 + 10)
  else none

def readHex : ℕ → Bytes → ℕ
  | acc, [] => acc
  | acc, c :: s =>
    match hexValue? c with
    | some d => readHex (16 * acc + d) s
    | none => acc

/-- `strtoul(s, NULL, 16)` of at most eight characters, whose value needs no saturation. -/
def strtoulHex (s : Bytes) : UInt32 :=
  let s := s.dropWhile isSpace
  let negative := s.head? = some 0x2D
  let s := if negative ∨ s.head? = some 0x2B then s.tail else s
  let s := if s.head? = some 0x30 ∧ (s[1]? = some 0x78 ∨ s[1]? = some 0x58) then s.drop 2 else s
  let value := UInt32.ofNat (readHex 0 s)
  if negative then -value else value

def parseType (c : UInt8) : Option AddressType :=
  if c = 0x62 then some .b else if c = 0x68 then some .h else if c = 0x77 then some .w else none

/-- Eight digits and the letter of a type. -/
def parseEntry (token : Bytes) : Option AddressEntry :=
  if token.length ≠ 9 then none
  else
    (parseType (token.getD 8 0)).bind fun type =>
      let addr := strtoulHex (token.take 8)
      if addr = 0 then none else some ⟨addr, type⟩

def isDelimiter (c : UInt8) : Bool :=
  c = 0x2C || c = 0x09 || c = 0x0D || c = 0x0A || c = 0x20

def customRpcMaxEntries : ℕ := 32

def parseEntries (buf : Bytes) : List AddressEntry :=
  (((buf.splitOnP isDelimiter).filter (· ≠ [])).filterMap parseEntry).take customRpcMaxEntries

/-- `g_entries` -/
def CustomRpc.addresses (rpc : CustomRpc) : List AddressEntry := rpc.entries.elim [] parseEntries

def customRpcHasConfig (rpc : CustomRpc) : Bool :=
  rpc.tried && decide (0 < rpc.addresses.length) && decide (rpc.loadedTitleId ≠ 0)

/-! ## The mapping -/

def destAddr : UInt32 := 0x00100000

/-- The variables of `read_memory.c`, and the process whose memory the kernel shows at `DEST_ADDR`
(it is the one that the handle was opened for). -/
structure MappedPage where
  mappedPid : UInt32
  pageStart : UInt32
  size : UInt32
  isMapped : Bool
  window : Option UInt32
deriving DecidableEq

namespace MappedPage

/-- `CustomRPC_Init` -/
def init : MappedPage := ⟨0, 0, 0, false, none⟩

/-- The kernel takes the mapping away. -/
def unmapPage (p : MappedPage) : MappedPage :=
  if p.isMapped then { p with mappedPid := 0, isMapped := false, window := none } else p

/-- The process cannot be opened or mapped without a code region, its start and size. -/
def mapPage (p : MappedPage) (pid : UInt32) (region : Option (UInt32 × UInt32)) : MappedPage :=
  match region with
  | some (start, size) => ⟨pid, start, size, true, some pid⟩
  | none => p.unmapPage

end MappedPage

/-- The memory of the processes, and the module's own outside of the window. -/
structure Memory where
  process : UInt32 → UInt32 → UInt8
  own : UInt32 → UInt8

namespace Memory

/-- A byte of the module's address space. -/
def byte (m : Memory) (p : MappedPage) (a : UInt32) : UInt8 :=
  match p.window with
  | some pid =>
    if a - destAddr < p.size then m.process pid (p.pageStart + (a - destAddr)) else m.own a
  | none => m.own a

def read (m : Memory) (p : MappedPage) (a : UInt32) (count : ℕ) : ℕ :=
  (List.range count).foldr (fun i v => (m.byte p (a + UInt32.ofNat i)).toNat + 256 * v) 0

end Memory

def customRpcReadByte (m : Memory) (p : MappedPage) (address : UInt32) : ℕ :=
  if !p.isMapped then 0
  else if p.size ≤ address - p.pageStart then 0
  else m.read p (destAddr + (address - p.pageStart)) 1

/-- The end of the value is compared, in 32 bits, with the end of the mapping. -/
def customRpcReadWide (m : Memory) (p : MappedPage) (address : UInt32) (count : ℕ) : ℕ :=
  if !p.isMapped then 0
  else if p.size < address - p.pageStart + UInt32.ofNat count then 0
  else m.read p (destAddr + (address - p.pageStart)) count

def customRpcReadHalfWord (m : Memory) (p : MappedPage) (address : UInt32) : ℕ :=
  customRpcReadWide m p address 2

def customRpcReadWord (m : Memory) (p : MappedPage) (address : UInt32) : ℕ :=
  customRpcReadWide m p address 4

/-! ## The extra string -/

/-- `"%0<digits>lX"`, of a value of no more digits. -/
def hexUpper (digits value : ℕ) : Bytes := (lastDigits 16 digits value).map hexDigit

def formatEntry (m : Memory) (p : MappedPage) (e : AddressEntry) : Bytes :=
  hexUpper 8 e.address.toNat ++ 0x3D ::
    match e.type with
    | .b => hexUpper 2 (customRpcReadByte m p e.address)
    | .h => hexUpper 4 (customRpcReadHalfWord m p e.address)
    | .w => hexUpper 8 (customRpcReadWord m p e.address)

/-- The entries behind what is in the buffer; the one that the buffer has no room for is cut. -/
def appendEntries (format : AddressEntry → Bytes) (extraSize : ℕ) :
    Bytes → List AddressEntry → Bytes
  | out, [] => out
  | out, e :: es =>
    if extraSize ≤ out.length then out
    else
      let out := if 0 < out.length ∧ out.length + 1 < extraSize then out ++ [0x26] else out
      let text := format e
      if extraSize ≤ out.length + text.length then out ++ text.take (extraSize - out.length - 1)
      else appendEntries format extraSize (out ++ text) es

def customRpcBuildExtraString (m : Memory) (p : MappedPage) (rpc : CustomRpc) (extraSize : ℕ) :
    Bytes :=
  if !customRpcHasConfig rpc then []
  else appendEntries (formatEntry m p) extraSize [] rpc.addresses

/-! ## The tick -/

def isUnreserved (c : UInt8) : Bool :=
  isDigit c || (0x41 ≤ c && c ≤ 0x5A) || (0x61 ≤ c && c ≤ 0x7A) || c = 0x2D || c = 0x5F ||
    c = 0x2E || c = 0x7E

/-- `discord_url_encode`, with `room` bytes and three more left in the buffer. -/
def urlEncode : ℕ → Bytes → Bytes
  | _, [] => []
  | 0, _ => []
  | room + 1, c :: src =>
    if c = 0x20 then 0x2B :: urlEncode room src
    else if isUnreserved c then c :: urlEncode room src
    else 0x25 :: hexDigit (c.toNat / 16) :: hexDigit (c.toNat % 16) :: urlEncode (room - 2) src

def discordUrlEncode (src : Bytes) (dstSize : ℕ) : Bytes := urlEncode (dstSize - 3) src

/-- What a tick finds: the running title and its process, the preference, the reply to a request
for a script, the code region of the process where it can be mapped, and the names in the title's
SMDH. -/
structure TickInput where
  app : Option (UInt64 × UInt32)
  disableCustomRpc : Bool
  session : Session
  reply : Option Bytes
  region : Option (UInt32 × UInt32)
  memory : Memory
  smdh : Option (Bytes × Bytes)

/-- `get_current_app_info` -/
def TickInput.titleId (t : TickInput) : UInt64 := t.app.elim 0 (·.1)

def TickInput.pid (t : TickInput) : UInt32 := t.app.elim 0 (·.2)

structure ActivityState where
  rpc : CustomRpc
  page : MappedPage
deriving DecidableEq

namespace ActivityState

def init : ActivityState := ⟨customRpcClearConfig, MappedPage.init⟩

/-- Both are given up together, also by the thread between two ticks. -/
def drop (s : ActivityState) : ActivityState := ⟨customRpcClearConfig, s.page.unmapPage⟩

end ActivityState

/-- The extra string is there where it was built. -/
structure TickResult where
  code : Int
  state : ActivityState
  extra : Option Bytes
  buffer : Bytes

/-- The part of `create_activity_string` before the extra string. -/
def refreshPage (s : ActivityState) (t : TickInput) : MappedPage :=
  if s.page.mappedPid ≠ t.pid then
    if customRpcHasConfig s.rpc then s.page.unmapPage.mapPage t.pid t.region
    else s.page.unmapPage
  else s.page

def activityText (titleid name publisher extra : Bytes) (bufferSize : ℕ) : Bytes :=
  let text := (ascii "titleid=".toList ++ titleid ++ ascii "&name=".toList ++
    discordUrlEncode name 1536 ++ ascii "&publisher=".toList ++
    discordUrlEncode publisher 768).take (bufferSize - 1)
  if extra = [] then text
  else
    text ++ (ascii "&extra=".toList ++ discordUrlEncode extra (3 * customRpcExtraSize)).take
      (bufferSize - text.length - 1)

def createActivityString (s : ActivityState) (t : TickInput) (bufferSize : ℕ) : TickResult :=
  if t.titleId ≠ 0 then
    let (name, publisher) := t.smdh.getD ([], [])
    let s := { s with page := refreshPage s t }
    let extra :=
      if customRpcHasConfig s.rpc then
        some (customRpcBuildExtraString t.memory s.page s.rpc (customRpcExtraSize + 1))
      else none
    ⟨0, s, extra, activityText (hex16 t.titleId) name publisher (extra.getD []) bufferSize⟩
  else
    ⟨0, s.drop, none, activityText (List.replicate 16 0x30) (ascii "Home Menu".toList)
      (ascii "Nintendo".toList) [] bufferSize⟩

/-- `fetch_script_for_title`, with what it does to the mapping. -/
def ActivityState.fetch (crypto : Crypto) (s : ActivityState) (t : TickInput) :
    Int × ActivityState :=
  let (res, _, rpc) := fetchScriptForTitle crypto t.session s.rpc t.titleId t.reply
  (res, ⟨rpc, if t.titleId = 0 then s.page.unmapPage else s.page⟩)

def discordActivityTick (crypto : Crypto) (s : ActivityState) (t : TickInput) (bufferSize : ℕ) :
    TickResult :=
  if t.disableCustomRpc then createActivityString s.drop t bufferSize
  else
    let (fetchRes, s) := s.fetch crypto t
    if fetchRes ≠ 0 then ⟨fetchRes, s, none, []⟩ else createActivityString s t bufferSize

/-! ## Runs -/

inductive TickEvent where
  | tick (t : TickInput)
  | drop

/-- A run of the thread: its state, and the scripts that it has downloaded, with their titles. -/
structure RpcHistory where
  state : ActivityState
  scripts : List (UInt64 × Bytes)

/-- The script that a tick downloads. -/
def downloaded (crypto : Crypto) (s : ActivityState) (t : TickInput) : List (UInt64 × Bytes) :=
  if t.disableCustomRpc = false ∧ t.titleId ≠ 0 ∧ customRpcTriedForTitle s.rpc t.titleId = false ∧
      (discordGetScript crypto t.session t.titleId t.reply).1 = 0 then
    [(t.titleId, (codeOut t.reply).getD [])]
  else []

namespace RpcHistory

def init : RpcHistory := ⟨ActivityState.init, []⟩

/-- The buffer of the activity loop has 5500 bytes. -/
def tick (crypto : Crypto) (h : RpcHistory) (t : TickInput) : TickResult :=
  discordActivityTick crypto h.state t 5500

def step (crypto : Crypto) (h : RpcHistory) : TickEvent → RpcHistory
  | .tick t => ⟨(h.tick crypto t).state, h.scripts ++ downloaded crypto h.state t⟩
  | .drop => { h with state := h.state.drop }

def run (crypto : Crypto) (events : List TickEvent) : RpcHistory :=
  events.foldl (step crypto) init

end RpcHistory

/-! ## The mapping shows the mapped process -/

/-- The window is open exactly while a process is mapped, and shows that process. -/
def MappedPage.Consistent (p : MappedPage) : Prop :=
  p.window = if p.isMapped then some p.mappedPid else none

theorem MappedPage.Consistent.unmapPage {p : MappedPage} (h : p.Consistent) :
    p.unmapPage.Consistent ∧ p.unmapPage.isMapped = false := by
  unfold MappedPage.unmapPage
  split_ifs with hmapped
  · exact ⟨rfl, rfl⟩
  · exact ⟨h, Bool.eq_false_iff.mpr hmapped⟩

theorem MappedPage.Consistent.mapPage {p : MappedPage} (h : p.Consistent) (pid : UInt32)
    (region : Option (UInt32 × UInt32)) :
    (p.mapPage pid region).Consistent ∧
      ((p.mapPage pid region).isMapped = true → (p.mapPage pid region).mappedPid = pid) := by
  rcases region with _ | ⟨start, size⟩
  · obtain ⟨hconsistent, hunmapped⟩ := h.unmapPage
    exact ⟨hconsistent, fun hmapped => absurd (hunmapped.symm.trans hmapped) (by decide)⟩
  · exact ⟨rfl, fun _ => rfl⟩

theorem refreshPage_spec {s : ActivityState} (h : s.page.Consistent) (t : TickInput) :
    (refreshPage s t).Consistent ∧
      ((refreshPage s t).isMapped = true → (refreshPage s t).mappedPid = t.pid) := by
  unfold refreshPage
  obtain ⟨hconsistent, hunmapped⟩ := h.unmapPage
  split_ifs with hpid
  · exact hconsistent.mapPage t.pid t.region
  · exact ⟨hconsistent, fun hmapped => absurd (hunmapped.symm.trans hmapped) (by decide)⟩
  · exact ⟨h, fun _ => not_not.mp hpid⟩

/-! ## The configuration is the title's -/

/-- The entries are those of a script that was downloaded for the title. -/
def CustomRpc.LoadedFrom (rpc : CustomRpc) (scripts : List (UInt64 × Bytes)) : Prop :=
  ∀ text, rpc.entries = some text →
    ∃ code, (rpc.loadedTitleId, code) ∈ scripts ∧ text = (str code).take (customRpcExtraSize - 1)

theorem loadedFrom_clear (scripts : List (UInt64 × Bytes)) :
    customRpcClearConfig.LoadedFrom scripts := by
  rintro text ⟨⟩

theorem CustomRpc.LoadedFrom.append {rpc : CustomRpc} {scripts : List (UInt64 × Bytes)}
    (h : rpc.LoadedFrom scripts) (more : List (UInt64 × Bytes)) :
    rpc.LoadedFrom (scripts ++ more) := by
  intro text htext
  obtain ⟨code, hcode, rfl⟩ := h text htext
  exact ⟨code, List.mem_append_left _ hcode, rfl⟩

theorem fetch_spec {crypto : Crypto} {s : ActivityState} {t : TickInput}
    {scripts : List (UInt64 × Bytes)} (hloaded : s.rpc.LoadedFrom scripts)
    (henabled : t.disableCustomRpc = false) :
    (s.fetch crypto t).2.rpc.LoadedFrom (scripts ++ downloaded crypto s t) ∧
      ((s.fetch crypto t).1 = 0 → t.titleId ≠ 0 →
        (s.fetch crypto t).2.rpc.loadedTitleId = t.titleId) := by
  unfold ActivityState.fetch fetchScriptForTitle
  by_cases htitle : t.titleId = 0
  · simp only [if_pos htitle]
    exact ⟨loadedFrom_clear _, fun _ hne => absurd htitle hne⟩
  by_cases htried : customRpcTriedForTitle s.rpc t.titleId = true
  · simp only [if_neg htitle, if_pos htried]
    refine ⟨hloaded.append _, fun _ _ => ?_⟩
    rw [customRpcTriedForTitle, Bool.and_eq_true, decide_eq_true_eq] at htried
    exact htried.2
  simp only [if_neg htitle, if_neg htried]
  by_cases hscript : (discordGetScript crypto t.session t.titleId t.reply).1 = 0
  · have hdownloaded : downloaded crypto s t = [(t.titleId, (codeOut t.reply).getD [])] :=
      if_pos ⟨henabled, htitle, Bool.eq_false_iff.mpr htried, hscript⟩
    simp only [hscript, ne_eq, not_true, if_false, hdownloaded]
    by_cases hnone : ((codeOut t.reply).getD []).head? = some 0x2D ∨ (codeOut t.reply).getD [] = []
    · simp only [if_pos hnone]
      exact ⟨by rintro text ⟨⟩, fun _ _ => rfl⟩
    · simp only [if_neg hnone]
      refine ⟨?_, fun _ _ => rfl⟩
      rintro text ⟨⟩
      exact ⟨_, List.mem_append_right _ List.mem_cons_self, rfl⟩
  · simp only [ne_eq, hscript, not_false_eq_true, if_true]
    exact ⟨loadedFrom_clear _, fun h => absurd h (by decide)⟩

/-! ## Runs -/

/-- What the thread's variables say is true: of the mapping, and of the scripts it downloaded. -/
structure ActivityState.Consistent (s : ActivityState) (scripts : List (UInt64 × Bytes)) :
    Prop where
  page : s.page.Consistent
  loaded : s.rpc.LoadedFrom scripts

theorem ActivityState.Consistent.drop {s : ActivityState} {scripts : List (UInt64 × Bytes)}
    (h : s.Consistent scripts) : s.drop.Consistent scripts :=
  ⟨h.page.unmapPage.1, loadedFrom_clear scripts⟩

/-- An extra string is built of the state it leaves, where there is a title. -/
structure Built (t : TickInput) (s : ActivityState) (r : TickResult) (extra : Bytes) : Prop where
  title : t.titleId ≠ 0
  config : customRpcHasConfig s.rpc = true
  rpc : r.state.rpc = s.rpc
  pid : r.state.page.isMapped = true → r.state.page.mappedPid = t.pid
  extra : extra = customRpcBuildExtraString t.memory r.state.page r.state.rpc
    (customRpcExtraSize + 1)

theorem createActivityString_spec {s : ActivityState} {scripts : List (UInt64 × Bytes)}
    (h : s.Consistent scripts) (t : TickInput) (bufferSize : ℕ) :
    (createActivityString s t bufferSize).state.Consistent scripts ∧
      ∀ extra, (createActivityString s t bufferSize).extra = some extra →
        Built t s (createActivityString s t bufferSize) extra := by
  obtain ⟨hpage, hpid⟩ := refreshPage_spec h.page t
  unfold createActivityString
  by_cases htitle : t.titleId ≠ 0
  · simp only [if_pos htitle]
    refine ⟨⟨hpage, h.loaded⟩, fun extra hextra => ?_⟩
    by_cases hconfig : customRpcHasConfig s.rpc = true
    · rw [if_pos hconfig] at hextra
      exact ⟨htitle, hconfig, rfl, hpid, (Option.some.inj hextra).symm⟩
    · rw [if_neg hconfig] at hextra
      exact absurd hextra.symm (Option.some_ne_none extra)
  · simp only [if_neg htitle]
    exact ⟨h.drop, fun extra hextra => absurd hextra.symm (Option.some_ne_none extra)⟩

theorem downloaded_of_disabled {crypto : Crypto} {s : ActivityState} {t : TickInput}
    (h : t.disableCustomRpc = true) : downloaded crypto s t = [] :=
  if_neg fun hall => absurd (h.symm.trans hall.1) (by decide)

theorem discordActivityTick_spec {crypto : Crypto} {s : ActivityState}
    {scripts : List (UInt64 × Bytes)} (h : s.Consistent scripts) (t : TickInput)
    (bufferSize : ℕ) :
    (discordActivityTick crypto s t bufferSize).state.Consistent
        (scripts ++ downloaded crypto s t) ∧
      ∀ extra, (discordActivityTick crypto s t bufferSize).extra = some extra →
        ∃ u : ActivityState, u.rpc.loadedTitleId = t.titleId ∧
          Built t u (discordActivityTick crypto s t bufferSize) extra := by
  unfold discordActivityTick
  by_cases hdisabled : t.disableCustomRpc = true
  · simp only [if_pos hdisabled, downloaded_of_disabled hdisabled, List.append_nil]
    obtain ⟨hstate, hbuilt⟩ := createActivityString_spec h.drop t bufferSize
    refine ⟨hstate, fun extra hextra => ?_⟩
    -- the configuration was cleared, so there is none to build a string of
    have hcleared : customRpcHasConfig s.drop.rpc = false := rfl
    exact absurd (hcleared.symm.trans (hbuilt extra hextra).config) (by decide)
  · have henabled : t.disableCustomRpc = false := Bool.eq_false_iff.mpr hdisabled
    obtain ⟨hloaded, htitle⟩ := @fetch_spec crypto s t scripts h.loaded henabled
    have hfetched : (s.fetch crypto t).2.Consistent (scripts ++ downloaded crypto s t) := by
      refine ⟨?_, hloaded⟩
      show MappedPage.Consistent (if t.titleId = 0 then s.page.unmapPage else s.page)
      split_ifs
      · exact h.page.unmapPage.1
      · exact h.page
    simp only [if_neg hdisabled]
    by_cases hres : (s.fetch crypto t).1 ≠ 0
    · simp only [if_pos hres]
      exact ⟨hfetched, fun extra hextra => absurd hextra.symm (Option.some_ne_none extra)⟩
    · simp only [if_neg hres]
      obtain ⟨hstate, hbuilt⟩ := createActivityString_spec hfetched t bufferSize
      exact ⟨hstate, fun extra hextra => ⟨(s.fetch crypto t).2,
        htitle (not_not.mp hres) (hbuilt extra hextra).title, hbuilt extra hextra⟩⟩

theorem run_consistent (crypto : Crypto) (events : List TickEvent) :
    (RpcHistory.run crypto events).state.Consistent (RpcHistory.run crypto events).scripts := by
  induction events using List.reverseRecOn with
  | nil => exact ⟨rfl, loadedFrom_clear []⟩
  | append_singleton events e ih =>
    rw [RpcHistory.run, List.foldl_append]
    cases e with
    | tick t => exact (discordActivityTick_spec ih t 5500).1
    | drop => exact ih.drop

/-! ## What is reported -/

theorem read_congr {m m' : Memory} {p : MappedPage} (hown : m'.own = m.own)
    (hwindow : ∀ q, p.window = some q → m'.process q = m.process q) (a : UInt32) (count : ℕ) :
    m'.read p a count = m.read p a count := by
  have hbyte : m'.byte p = m.byte p := by
    funext a
    unfold Memory.byte
    cases hopen : p.window with
    | none => simp only [hown]
    | some q => simp only [hown, hwindow q hopen]
  rw [Memory.read, Memory.read, hbyte]

theorem buildExtraString_congr {m m' : Memory} {p : MappedPage} (hown : m'.own = m.own)
    (hwindow : ∀ q, p.window = some q → m'.process q = m.process q) (rpc : CustomRpc)
    (extraSize : ℕ) :
    customRpcBuildExtraString m' p rpc extraSize = customRpcBuildExtraString m p rpc extraSize := by
  have hformat : formatEntry m' p = formatEntry m p := by
    funext e
    unfold formatEntry customRpcReadByte customRpcReadHalfWord customRpcReadWord customRpcReadWide
    simp only [read_congr hown hwindow]
  rw [customRpcBuildExtraString, customRpcBuildExtraString, hformat]

theorem createActivityString_memory (s : ActivityState) (t : TickInput) (m : Memory)
    (bufferSize : ℕ) :
    (createActivityString s { t with memory := m } bufferSize).state =
        (createActivityString s t bufferSize).state ∧
      (createActivityString s { t with memory := m } bufferSize).extra.isSome =
        (createActivityString s t bufferSize).extra.isSome := by
  unfold createActivityString
  by_cases htitle : t.titleId ≠ 0
  · rw [if_pos htitle, if_pos (show TickInput.titleId { t with memory := m } ≠ 0 from htitle)]
    refine ⟨rfl, ?_⟩
    by_cases hconfig : customRpcHasConfig s.rpc = true
    · simp only [if_pos hconfig, Option.isSome_some]
    · simp only [if_neg hconfig]
  · rw [if_neg htitle, if_neg (show ¬TickInput.titleId { t with memory := m } ≠ 0 from htitle)]
    exact ⟨rfl, rfl⟩

theorem discordActivityTick_memory (crypto : Crypto) (s : ActivityState) (t : TickInput)
    (m : Memory) (bufferSize : ℕ) :
    (discordActivityTick crypto s { t with memory := m } bufferSize).state =
        (discordActivityTick crypto s t bufferSize).state ∧
      (discordActivityTick crypto s { t with memory := m } bufferSize).extra.isSome =
        (discordActivityTick crypto s t bufferSize).extra.isSome := by
  have hfetch : s.fetch crypto { t with memory := m } = s.fetch crypto t := rfl
  unfold discordActivityTick
  simp only [hfetch]
  split_ifs
  · exact createActivityString_memory s.drop t m bufferSize
  · exact ⟨rfl, rfl⟩
  · exact createActivityString_memory _ t m bufferSize

theorem addresses_of_config {rpc : CustomRpc} {scripts : List (UInt64 × Bytes)}
    (hconfig : customRpcHasConfig rpc = true) (hloaded : rpc.LoadedFrom scripts) :
    ∃ code, (rpc.loadedTitleId, code) ∈ scripts ∧
      rpc.addresses = parseEntries ((str code).take (customRpcExtraSize - 1)) := by
  cases hentries : rpc.entries with
  | none =>
    have hempty : rpc.addresses = [] := by rw [CustomRpc.addresses, hentries]; rfl
    simp [customRpcHasConfig, hempty] at hconfig
  | some text =>
    obtain ⟨code, hcode, htext⟩ := hloaded text hentries
    exact ⟨code, hcode, by rw [CustomRpc.addresses, hentries, ← htext]; rfl⟩

/-- Whenever a tick builds the extra string, the watched addresses are those of a script that was
downloaded for the running title, what is mapped is the running process, and the string depends on
the memory of no other process. -/
theorem discordActivityTick_consistent (crypto : Crypto) (events : List TickEvent) (t : TickInput)
    (extra : Bytes)
    (hextra : ((RpcHistory.run crypto events).tick crypto t).extra = some extra) :
    let h := (RpcHistory.run crypto events).step crypto (.tick t)
    ∃ tid pid, t.app = some (tid, pid) ∧ h.state.rpc.loadedTitleId = tid ∧
      (∃ code, (tid, code) ∈ h.scripts ∧
        h.state.rpc.addresses = parseEntries ((str code).take (customRpcExtraSize - 1))) ∧
      (h.state.page.isMapped = true → h.state.page.mappedPid = pid) ∧
      (∀ q, h.state.page.window = some q → q = pid) ∧
      ∀ m : Memory, m.process pid = t.memory.process pid → m.own = t.memory.own →
        ((RpcHistory.run crypto events).tick crypto { t with memory := m }).extra =
          some extra := by
  intro h
  have hrun := run_consistent crypto events
  obtain ⟨hstate, hbuilt⟩ := discordActivityTick_spec hrun t 5500
  obtain ⟨u, hloaded, htitle, hconfig, hrpc, hpid, rfl⟩ := hbuilt extra hextra
  obtain ⟨tid, pid, happ⟩ : ∃ tid pid, t.app = some (tid, pid) := by
    cases happ : t.app with
    | none => exact absurd (by rw [TickInput.titleId, happ]; rfl) htitle
    | some app => exact ⟨app.1, app.2, rfl⟩
  have htid : t.titleId = tid := by rw [TickInput.titleId, happ]; rfl
  have hpid' : t.pid = pid := by rw [TickInput.pid, happ]; rfl
  rw [htid] at hloaded
  rw [hpid'] at hpid
  have hrpc' : h.state.rpc = u.rpc := hrpc
  have hwindow : ∀ q, h.state.page.window = some q → q = pid := by
    intro q hq
    have hshown : h.state.page.window = if h.state.page.isMapped then some h.state.page.mappedPid
      else none := hstate.page
    rw [hshown] at hq
    split_ifs at hq with hmapped
    exact (Option.some.inj hq).symm.trans (hpid hmapped)
  refine ⟨tid, pid, happ, by rw [hrpc', hloaded], ?_, hpid, hwindow, fun m hprocess hown => ?_⟩
  · obtain ⟨code, hcode, haddresses⟩ := addresses_of_config (hrpc' ▸ hconfig) hstate.loaded
    refine ⟨code, ?_, haddresses⟩
    have hsame : h.state.rpc.loadedTitleId = tid := by rw [hrpc', hloaded]
    exact hsame ▸ hcode
  · obtain ⟨hsame, hsome⟩ := discordActivityTick_memory crypto
      (RpcHistory.run crypto events).state t m 5500
    have hsome' : ((RpcHistory.run crypto events).tick crypto
        { t with memory := m }).extra.isSome = true := by
      rw [RpcHistory.tick, hsome]
      exact Option.isSome_iff_exists.mpr ⟨_, hextra⟩
    obtain ⟨extra', hextra'⟩ := Option.isSome_iff_exists.mp hsome'
    obtain ⟨-, hbuilt'⟩ := discordActivityTick_spec hrun { t with memory := m } 5500
    obtain ⟨-, -, -, -, -, -, hextra''⟩ := hbuilt' extra' hextra'
    rw [hextra', hextra'', hsame]
    refine congrArg some (buildExtraString_congr hown (fun q hq => ?_) _ _)
    rw [hwindow q hq, hprocess]

/-- A title with one watched word, under a server whose signatures are all alike. -/
def watchedCrypto : Crypto := ⟨id, fun _ _ => List.replicate 96 0x61⟩

def watchedTitle : TickInput where
  app := some (5, 7)
  disableCustomRpc := false
  session := ⟨0, true⟩
  reply := some (ascii "code=00100000w&sig_hex=".toList ++ List.replicate 96 0x61)
  region := some (0x00100000, 0x1000)
  memory := ⟨fun _ _ => 0x12, fun _ => 0⟩
  smdh := none

/-- The watched process reads the same in it, and the others do not. -/
def othersChanged : Memory := ⟨fun pid _ => if pid = 7 then 0x12 else 0xEE, fun _ => 0⟩

theorem discordActivityTick_consistent_watched :
    ((RpcHistory.run watchedCrypto []).tick watchedCrypto
      { watchedTitle with memory := othersChanged }).extra =
        some (ascii "00100000=12121212".toList) := by
  obtain ⟨tid, pid, happ, -, -, -, -, hsame⟩ := discordActivityTick_consistent watchedCrypto []
    watchedTitle (ascii "00100000=12121212".toList) (by decide +kernel)
  obtain ⟨rfl, rfl⟩ : 5 = tid ∧ 7 = pid := Prod.mk.injEq .. ▸ Option.some.inj happ
  exact hsame othersChanged rfl rfl

end Presence3DS.Discord
