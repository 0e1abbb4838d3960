import Presence3DS.Rosalina.PluginFile

/-! The plugin files whose loading stays in the memory block. -/

namespace Presence3DS.Rosalina.Plugin
open NotedRuns NotedM RawMemory

/-! ## The header in the block -/

section
variable {job : Job} {m m' : Memory} {C : Prop} {β : Type} {R : β → Memory → Prop}

/-- The fields that are read again after the header has been copied. -/
def keptFields : List ℕ := [16, 24, 100, 104, 108, 112, 128]

def headerAddr (job : Job) : ℕ := job.memblock + headerPlace job

/-- The header lies in the block. -/
def HeaderFits (job : Job) : Prop :=
  headerSize ≤ u32 job.content.length ∧ u32 job.content.length ≤ regionSize job

/-- The fields in the block are those of the file. -/
def HeaderIn (job : Job) (m : Memory) : Prop :=
  ∀ off ∈ keptFields, leValue (read m (headerAddr job + off) 4) = headerField job off

theorem keptFields_lt : ∀ off ∈ keptFields, off + 4 ≤ headerSize := by
  decide

theorem HeaderIn.congr (h : HeaderIn job m)
    (hsame : ∀ x, headerAddr job ≤ x → x < headerAddr job + headerSize → m' x = m x) :
    HeaderIn job m' := by
  intro off hoff
  have hlt := keptFields_lt off hoff
  rw [read_congr fun i hi => hsame _ (by omega) (by omega)]
  exact h off hoff

theorem HeaderIn.store (h : HeaderIn job m) {k : ℕ}
    (hk : ∀ off ∈ keptFields, k + 4 ≤ off ∨ off + 4 ≤ k) (v : ℕ) :
    HeaderIn job (write m (headerAddr job + k) (leBytes 4 v)) := by
  intro off hoff
  rw [read_write_of_disjoint]
  · exact h off hoff
  · rw [length_leBytes]
    rcases hk off hoff with hlt | hlt
    · exact .inr (by omega)
    · exact .inl (by omega)

theorem HeaderIn.read (h : HeaderIn job m) {bytes : List UInt8} {dst len : ℕ}
    (hlen : bytes.length ≤ len) (hapart : len = 0 ∨ headerAddr job + headerSize ≤ dst ∨
      dst + len ≤ headerAddr job) : HeaderIn job (write m dst bytes) :=
  h.congr fun x hlo hhi => write_outside (by omega)

/-! ## Reading the file -/

def AuthorFits (job : Job) : Prop :=
  authorLen job = 0 ∨ headerPlace job + headerSize + authorLen job ≤ regionSize job

def TitleFits (job : Job) : Prop :=
  titleLen job = 0 ∨ headerPlace job + headerSize + authorLen job + titleLen job ≤ regionSize job

def TargetsFit (job : Job) : Prop :=
  targetsLen job = 0 ∨ targetsPlace job + targetsLen job ≤ regionSize job

/-- The segments, read behind the `PluginHeader`, fit into the block. -/
def SegmentsFit (job : Job) : Prop :=
  segmentsLen job = 0 ∨ pluginHeaderSize + segmentsLen job ≤ regionSize job

/-- The segments leave the header alone. -/
def SegmentsApart (job : Job) : Prop :=
  segmentsLen job = 0 ∨ pluginHeaderSize + segmentsLen job ≤ headerPlace job ∨
    headerPlace job + headerSize ≤ pluginHeaderSize

theorem fits_iff : Fits job ↔ HeaderFits job ∧ AuthorFits job ∧ TitleFits job ∧ TargetsFit job ∧
    SegmentsFit job ∧ SegmentsApart job ∧ exeSize job ≤ regionSize job := by
  unfold SegmentsFit SegmentsApart
  constructor
  · rintro ⟨hheader, hauthor, htitle, htargets, hsegments, hexe⟩
    refine ⟨hheader, hauthor, htitle, htargets, ?_, ?_, hexe⟩
    · exact hsegments.imp_right And.left
    · exact hsegments.imp_right And.right
  · rintro ⟨hheader, hauthor, htitle, htargets, hfit, hapart, hexe⟩
    refine ⟨hheader, hauthor, htitle, htargets, ?_, hexe⟩
    rcases hfit with hzero | hfit
    · exact .inl hzero
    · exact hapart.imp_right fun hapart => ⟨hfit, hapart⟩

end

/-! ## Two files -/

end Presence3DS.Rosalina.Plugin
