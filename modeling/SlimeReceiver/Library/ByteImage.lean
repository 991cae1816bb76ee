import Mathlib.Data.List.Sort
import Mathlib.Tactic.Common

/-! # An image made of segments

Segments are runs of bytes at addresses. They are sorted by address and copied one after the other into a buffer that is
as long as the last one asks for; a copy past the end makes the buffer longer.

* **`Segment`**, **`assigned`** — what segments say about an address.
* **`splice`**, **`assemble`** — the buffer.
* **`IsImage`** — from the lowest address to the highest end, with the fill where nothing is assigned.
* **`assemble_isImage`**, **`assemble_perm`** — segments that do not overlap make such an image, in any order.
* **`isImage_iff_lossless`** — when an image made of parts of the segments is the image of all. -/

namespace SlimeReceiver

/-- A run of bytes at an address. -/
structure Segment (β : Type*) where
  addr : ℕ
  bytes : List β

variable {β : Type*}

namespace Segment

/-- The address behind the last byte. -/
def stop (s : Segment β) : ℕ := s.addr + s.bytes.length

/-- The byte at an address. -/
def read (s : Segment β) (a : ℕ) : Option β := if s.addr ≤ a then s.bytes[a - s.addr]? else none

/-- An address of the segment. -/
def Holds (s : Segment β) (a : ℕ) : Prop := s.addr ≤ a ∧ a < s.stop

theorem read_isSome {s : Segment β} {a : ℕ} : (s.read a).isSome ↔ s.Holds a := by
  unfold read Holds stop
  split
  case isTrue h =>
    rw [Option.isSome_iff_ne_none, ne_eq, List.getElem?_eq_none_iff]
    omega
  case isFalse h => exact ⟨nofun, fun hholds => absurd hholds.1 h⟩

/-- The part of a segment at and above a limit; `none` if it is empty. -/
def above (limit : ℕ) (s : Segment β) : Option (Segment β) :=
  let bytes := s.bytes.drop (limit - s.addr)
  if bytes.isEmpty then none else some ⟨max limit s.addr, bytes⟩

/-- A byte by its place behind a lower address. -/
theorem read_shift {s : Segment β} {base : ℕ} (hbase : base ≤ s.addr) (i : ℕ) :
    s.read (base + i) = if s.addr - base ≤ i then s.bytes[i - (s.addr - base)]? else none := by
  have hiff : s.addr ≤ base + i ↔ s.addr - base ≤ i := by omega
  have hindex : base + i - s.addr = i - (s.addr - base) := by omega
  unfold read
  simp only [hiff, hindex]

end Segment

/-- The byte that is assigned to an address. -/
def assigned (segs : List (Segment β)) (a : ℕ) : Option β := segs.findSome? (·.read a)

/-- No address is held by two segments. -/
def Apart (segs : List (Segment β)) : Prop := segs.Pairwise fun s t => ∀ a, ¬(s.Holds a ∧ t.Holds a)

theorem Apart.perm {segs segs' : List (Segment β)} (h : Apart segs) (hperm : segs.Perm segs') : Apart segs' :=
  List.Pairwise.perm h hperm fun hapart a hboth => hapart a hboth.symm

/-- Parts of segments that do not overlap do not overlap. -/
theorem Apart.filterMap {segs : List (Segment β)} {f : Segment β → Option (Segment β)} (h : Apart segs)
    (hpart : ∀ s t, f s = some t → ∀ a, t.Holds a → s.Holds a) : Apart (segs.filterMap f) := by
  refine List.Pairwise.filterMap f ?_ h
  intro s s' hapart t ht t' ht' a hboth
  exact hapart a ⟨hpart s t ht a hboth.1, hpart s' t' ht' a hboth.2⟩

theorem assigned_cons (s : Segment β) (segs : List (Segment β)) (a : ℕ) :
    assigned (s :: segs) a = (s.read a).or (assigned segs a) := by
  rw [assigned, List.findSome?_cons]
  cases s.read a <;> rfl

/-- What one segment holds no other does. -/
theorem assigned_eq_none_of_apart {s : Segment β} {segs : List (Segment β)}
    (hs : ∀ t ∈ segs, ∀ a, ¬(s.Holds a ∧ t.Holds a)) {a : ℕ} {b : β} (hread : s.read a = some b) :
    assigned segs a = none := by
  refine List.findSome?_eq_none_iff.mpr fun t ht => ?_
  rw [Option.eq_none_iff_forall_ne_some]
  intro c hc
  refine hs t ht a ⟨Segment.read_isSome.mp ?_, Segment.read_isSome.mp ?_⟩
  · rw [hread]
    rfl
  · rw [hc]
    rfl

/-- A byte is assigned to an address by a segment that has it, whichever comes first. -/
theorem assigned_eq_some {segs : List (Segment β)} (h : Apart segs) {a : ℕ} {b : β} :
    assigned segs a = some b ↔ ∃ s ∈ segs, s.read a = some b := by
  induction segs with
  | nil => simp [assigned]
  | cons s segs ih =>
    obtain ⟨hs, hrest⟩ := List.pairwise_cons.mp h
    rw [assigned_cons, List.exists_mem_cons_iff, ← ih hrest]
    cases hread : s.read a with
    | none => simp
    | some c => simp [assigned_eq_none_of_apart hs hread]

theorem assigned_perm {segs segs' : List (Segment β)} (h : Apart segs) (hperm : segs.Perm segs') (a : ℕ) :
    assigned segs a = assigned segs' a := by
  refine Option.ext fun b => ?_
  rw [assigned_eq_some h, assigned_eq_some (h.perm hperm)]
  simp only [hperm.mem_iff]

/-! ## Copies -/

/-- `image[offset:offset + len(bytes)] = bytes` for a `bytearray`. -/
def splice (image : List β) (offset : ℕ) (bytes : List β) : List β :=
  image.take offset ++ bytes ++ image.drop (offset + bytes.length)

theorem length_splice {image bytes : List β} {offset : ℕ} (h : offset ≤ image.length) :
    (splice image offset bytes).length = max image.length (offset + bytes.length) := by
  rw [splice, List.length_append, List.length_append, List.length_take, List.length_drop]
  omega

theorem getElem?_splice {image bytes : List β} {offset : ℕ} (h : offset ≤ image.length) (i : ℕ) :
    (splice image offset bytes)[i]? =
      (if offset ≤ i then bytes[i - offset]? else none).or (image[i]?) := by
  have htake : (image.take offset).length = offset := List.length_take_of_le h
  rw [splice, List.append_assoc]
  split
  case isFalse hlt =>
    rw [List.getElem?_append_left (by omega), List.getElem?_take_of_lt (by omega), Option.none_or]
  case isTrue hle =>
    rw [List.getElem?_append_right (by omega), htake]
    by_cases hin : i - offset < bytes.length
    · rw [List.getElem?_append_left hin, List.getElem?_eq_getElem hin, Option.some_or]
    · have hbeyond : bytes[i - offset]? = none := List.getElem?_eq_none (by omega)
      rw [List.getElem?_append_right (by omega), List.getElem?_drop, hbeyond, Option.none_or]
      congr 1
      omega

/-- The copies of all segments, for an image that begins at `base`. -/
def copyAll (base : ℕ) (image : List β) (segs : List (Segment β)) : List β :=
  segs.foldl (fun image s => splice image (s.addr - base) s.bytes) image

/-- What the copies leave. -/
theorem copyAll_spec {base : ℕ} (segs : List (Segment β)) {image : List β} (hapart : Apart segs)
    (hbase : ∀ s ∈ segs, base ≤ s.addr) (hroom : ∀ s ∈ segs, s.addr ≤ base + image.length) :
    (∀ i, (copyAll base image segs)[i]? = (assigned segs (base + i)).or image[i]?) ∧
      image.length ≤ (copyAll base image segs).length ∧
      (∀ s ∈ segs, s.stop ≤ base + (copyAll base image segs).length) ∧
      ((copyAll base image segs).length = image.length ∨
        ∃ s ∈ segs, s.stop = base + (copyAll base image segs).length) := by
  induction segs generalizing image with
  | nil => exact ⟨fun i => rfl, le_rfl, fun s hs => absurd hs List.not_mem_nil, .inl rfl⟩
  | cons s segs ih =>
    obtain ⟨hs, hrest⟩ := List.pairwise_cons.mp hapart
    have hbase_s : base ≤ s.addr := hbase s List.mem_cons_self
    have hroom_s : s.addr - base ≤ image.length := by
      have hroom_s := hroom s List.mem_cons_self
      omega
    have hlength : (splice image (s.addr - base) s.bytes).length = max image.length (s.addr - base + s.bytes.length) :=
      length_splice hroom_s
    have hlonger : image.length ≤ (splice image (s.addr - base) s.bytes).length := by omega
    obtain ⟨hread, hgrows, hstops, htop⟩ := ih hrest (fun t ht => hbase t (List.mem_cons_of_mem _ ht)) fun t ht =>
      (hroom t (List.mem_cons_of_mem _ ht)).trans (Nat.add_le_add_left hlonger base)
    have hcopy : copyAll base image (s :: segs) = copyAll base (splice image (s.addr - base) s.bytes) segs := rfl
    have hstop_s : s.stop ≤ base + (splice image (s.addr - base) s.bytes).length := by
      rw [Segment.stop]
      omega
    rw [hcopy]
    refine ⟨fun i => ?_, hlonger.trans hgrows, ?_, ?_⟩
    · rw [hread i, getElem?_splice hroom_s]
      rw [← Segment.read_shift hbase_s]
      rw [assigned_cons]
      -- only one of the two has a byte
      cases hread_s : s.read (base + i) with
      | none => rfl
      | some b =>
        rw [assigned_eq_none_of_apart hs hread_s]
        rfl
    · intro t ht
      rcases List.mem_cons.mp ht with rfl | ht
      · omega
      · exact hstops t ht
    · rcases htop with hsame | ⟨t, ht, hstop⟩
      · rw [hsame]
        rcases Nat.lt_or_ge image.length (s.addr - base + s.bytes.length) with hlt | hge
        · refine .inr ⟨s, List.mem_cons_self, ?_⟩
          rw [Segment.stop]
          omega
        · exact .inl (by omega)
      · exact .inr ⟨t, List.mem_cons_of_mem _ ht, hstop⟩

/-! ## The image -/

/-- The segments in the order of their addresses, those with the same address in the order they are in. -/
def sortSegments (segs : List (Segment β)) : List (Segment β) := segs.mergeSort fun s t => decide (s.addr ≤ t.addr)

/-- The image of the segments and its address; `none` if there are none. -/
def assemble (fill : β) (segs : List (Segment β)) : Option (ℕ × List β) :=
  match sortSegments segs with
  | [] => none
  | first :: rest =>
    let size := ((first :: rest).getLast (List.cons_ne_nil _ _)).stop - first.addr
    some (first.addr, copyAll first.addr (List.replicate size fill) (first :: rest))

/-- The bytes from the lowest address of the segments to their highest end. -/
structure IsImage (fill : β) (segs : List (Segment β)) (base : ℕ) (image : List β) : Prop where
  base_le : ∀ s ∈ segs, base ≤ s.addr
  base_mem : ∃ s ∈ segs, s.addr = base
  stop_le : ∀ s ∈ segs, s.stop ≤ base + image.length
  stop_mem : ∃ s ∈ segs, s.stop = base + image.length
  byte : ∀ i < image.length, image[i]? = some ((assigned segs (base + i)).getD fill)

section Assemble

variable {fill : β} {segs segs' : List (Segment β)} {base : ℕ} {image : List β}

theorem sortSegments_perm (segs : List (Segment β)) : (sortSegments segs).Perm segs := List.mergeSort_perm _ _

theorem sortSegments_pairwise (segs : List (Segment β)) :
    (sortSegments segs).Pairwise fun s t => s.addr ≤ t.addr := by
  have htrans : ∀ s t u : Segment β, decide (s.addr ≤ t.addr) = true → decide (t.addr ≤ u.addr) = true →
      decide (s.addr ≤ u.addr) = true := fun s t u hst htu =>
    decide_eq_true ((of_decide_eq_true hst).trans (of_decide_eq_true htu))
  have htotal : ∀ s t : Segment β, (decide (s.addr ≤ t.addr) || decide (t.addr ≤ s.addr)) = true := by
    intro s t
    rw [Bool.or_eq_true, decide_eq_true_iff, decide_eq_true_iff]
    exact Nat.le_total _ _
  exact (List.pairwise_mergeSort htrans htotal segs).imp fun hle => of_decide_eq_true hle

/-- Segments that do not overlap make an image. -/
theorem assemble_isImage (hapart : Apart segs) (h : assemble fill segs = some (base, image)) :
    IsImage fill segs base image := by
  have hperm := sortSegments_perm segs
  have hsorted := sortSegments_pairwise segs
  unfold assemble at h
  split at h
  case h_1 => cases h
  case h_2 first rest hsegs =>
    obtain ⟨rfl, rfl⟩ := Prod.mk.inj (Option.some.inj h)
    rw [hsegs] at hperm hsorted
    have hapart' : Apart (first :: rest) := hapart.perm hperm.symm
    have hfirst : ∀ s ∈ first :: rest, first.addr ≤ s.addr := by
      intro s hs
      rcases List.mem_cons.mp hs with rfl | hs
      · exact le_rfl
      · exact (List.pairwise_cons.mp hsorted).1 s hs
    have hlast : ∀ s ∈ first :: rest, s.addr ≤ ((first :: rest).getLast (List.cons_ne_nil _ _)).addr := by
      intro s hs
      have hsplit := List.dropLast_append_getLast (List.cons_ne_nil first rest)
      rw [← hsplit] at hs hsorted
      rcases List.mem_append.mp hs with hs | hs
      · exact (List.pairwise_append.mp hsorted).2.2 s hs _ (List.mem_singleton_self _)
      · rw [List.mem_singleton.mp hs]
    generalize hlastDef : (first :: rest).getLast (List.cons_ne_nil _ _) = last at hlast
    have hlastMem : last ∈ first :: rest := hlastDef ▸ List.getLast_mem _
    have hlastStop : last.addr ≤ last.stop := Nat.le_add_right _ _
    have hfirstLast := hfirst last hlastMem
    have hroom : ∀ s ∈ first :: rest,
        s.addr ≤ first.addr + (List.replicate (last.stop - first.addr) fill).length := by
      intro s hs
      have hle := hlast s hs
      rw [List.length_replicate]
      omega
    obtain ⟨hread, -, hstops, htop⟩ := copyAll_spec (first :: rest) hapart' hfirst hroom
    refine ⟨fun s hs => hfirst s (hperm.mem_iff.mpr hs), ⟨first, hperm.mem_iff.mp List.mem_cons_self, rfl⟩,
      fun s hs => hstops s (hperm.mem_iff.mpr hs), ?_, fun i hi => ?_⟩
    · rcases htop with hsame | ⟨s, hs, hstop⟩
      · refine ⟨last, hperm.mem_iff.mp hlastMem, ?_⟩
        rw [hsame, List.length_replicate]
        clear hread hstops
        omega
      · exact ⟨s, hperm.mem_iff.mp hs, hstop⟩
    · have hbyte := hread i
      rw [assigned_perm hapart' hperm] at hbyte
      rw [hbyte]
      rw [List.getElem?_eq_getElem hi] at hbyte
      cases hassigned : assigned segs (first.addr + i) with
      | some b => rfl
      | none =>
        rw [hassigned, Option.none_or] at hbyte
        have hfill := List.eq_of_mem_replicate (List.mem_of_getElem? hbyte.symm)
        rw [Option.none_or, ← hbyte, hfill]
        rfl

/-- An image is determined by what its segments assign. -/
theorem IsImage.unique {base' : ℕ} {image' : List β} (h : IsImage fill segs base image)
    (h' : IsImage fill segs' base' image') (hapart : Apart segs) (hperm : segs.Perm segs') :
    base = base' ∧ image = image' := by
  obtain ⟨s, hs, hbase⟩ := h.base_mem
  obtain ⟨s', hs', hbase'⟩ := h'.base_mem
  have hle := h.base_le s' (hperm.mem_iff.mpr hs')
  have hle' := h'.base_le s (hperm.mem_iff.mp hs)
  obtain rfl : base = base' := by omega
  obtain ⟨t, ht, hstop⟩ := h.stop_mem
  obtain ⟨t', ht', hstop'⟩ := h'.stop_mem
  have hge := h.stop_le t' (hperm.mem_iff.mpr ht')
  have hge' := h'.stop_le t (hperm.mem_iff.mp ht)
  have hlength : image.length = image'.length := by omega
  refine ⟨rfl, List.ext_getElem? fun i => ?_⟩
  rcases Nat.lt_or_ge i image.length with hi | hi
  · rw [h.byte i hi, h'.byte i (hlength ▸ hi), assigned_perm hapart hperm]
  · rw [List.getElem?_eq_none hi, List.getElem?_eq_none (hlength ▸ hi)]

theorem assemble_eq_none : assemble fill segs = none ↔ segs = [] := by
  have hperm := sortSegments_perm segs
  unfold assemble
  split
  case h_1 heq =>
    rw [heq] at hperm
    exact ⟨fun _ => hperm.nil_eq.symm, fun _ => rfl⟩
  case h_2 first rest heq =>
    rw [heq] at hperm
    refine ⟨nofun, ?_⟩
    rintro rfl
    exact absurd hperm.eq_nil (List.cons_ne_nil _ _)

/-- The order of the segments does not matter. -/
theorem assemble_perm (hapart : Apart segs) (hperm : segs.Perm segs') : assemble fill segs = assemble fill segs' := by
  cases hresult : assemble fill segs with
  | none =>
    obtain rfl := assemble_eq_none.mp hresult
    rw [hperm.nil_eq.symm, hresult]
  | some result =>
    cases hresult' : assemble fill segs' with
    | none =>
      obtain rfl := assemble_eq_none.mp hresult'
      rw [assemble_eq_none.mpr hperm.eq_nil] at hresult
      cases hresult
    | some result' =>
      obtain ⟨hbase, himage⟩ := (assemble_isImage hapart hresult).unique
        (assemble_isImage (hapart.perm hperm) hresult') hapart hperm
      exact congrArg some (Prod.ext hbase himage)

end Assemble

/-! ## Bytes that are left out -/

/-- Bytes that are left out are no loss when they are fill between those that are kept; an empty segment does no harm
between the bytes there are. -/
structure Lossless (fill : β) (kept all : List (Segment β)) : Prop where
  dropped : ∀ a x, assigned all a = some x → assigned kept a = none →
    x = fill ∧ (∃ s ∈ kept, s.addr ≤ a) ∧ ∃ s ∈ kept, a < s.stop
  empty : ∀ s ∈ kept, s.bytes = [] → (∃ t ∈ all, t.addr ≤ s.addr) ∧ ∃ t ∈ all, s.stop ≤ t.stop

section Lossless

variable {fill : β} {kept all : List (Segment β)} {base : ℕ} {image : List β}

/-- The byte at an address of a segment. -/
theorem exists_read {s : Segment β} {a : ℕ} (h : s.Holds a) : ∃ x, s.read a = some x :=
  Option.isSome_iff_exists.mp (Segment.read_isSome.mpr h)

/-- What is kept is a part of what there is. -/
structure Keeps (kept all : List (Segment β)) : Prop where
  nonempty : ∀ t ∈ all, t.bytes ≠ []
  part : ∀ s ∈ kept, s.bytes ≠ [] → ∃ t ∈ all, t.addr = s.addr ∧ s.bytes <+: t.bytes

namespace Keeps

theorem read (h : Keeps kept all) {s : Segment β} (hs : s ∈ kept) {a : ℕ} {x : β} (hread : s.read a = some x) :
    ∃ t ∈ all, t.read a = some x := by
  have hholds : s.Holds a := Segment.read_isSome.mp (by rw [hread]; rfl)
  have hne : s.bytes ≠ [] := by
    intro hempty
    have hlt := hholds.2
    rw [Segment.stop, hempty, List.length_nil] at hlt
    have hle := hholds.1
    omega
  obtain ⟨t, ht, haddr, more, hmore⟩ := h.part s hs hne
  refine ⟨t, ht, ?_⟩
  unfold Segment.read at hread ⊢
  rw [if_pos hholds.1] at hread
  rw [haddr, if_pos hholds.1, ← hmore, List.getElem?_append_left (List.getElem?_eq_some_iff.mp hread).1, hread]

theorem assigned (h : Keeps kept all) (hkept : Apart kept) (hall : Apart all) {a : ℕ} {x : β}
    (hx : assigned kept a = some x) : SlimeReceiver.assigned all a = some x := by
  obtain ⟨s, hs, hread⟩ := (assigned_eq_some hkept).mp hx
  exact (assigned_eq_some hall).mpr (h.read hs hread)

end Keeps

theorem first_holds {s : Segment β} (h : s.bytes ≠ []) : s.Holds s.addr := by
  have hpos := List.length_pos_iff.mpr h
  exact ⟨le_rfl, by rw [Segment.stop]; omega⟩

theorem last_holds {s : Segment β} (h : s.bytes ≠ []) : s.Holds (s.stop - 1) ∧ s.stop - 1 + 1 = s.stop := by
  have hpos := List.length_pos_iff.mpr h
  unfold Segment.Holds Segment.stop
  omega

/-- Where nothing is lost, the image of what is kept is the image of all. -/
theorem IsImage.of_lossless (hkept : Apart kept) (hall : Apart all) (hkeeps : Keeps kept all)
    (himage : IsImage fill kept base image) (h : Lossless fill kept all) : IsImage fill all base image := by
  -- an address of any segment lies within the image
  have hwithin {a : ℕ} {x : β} (ha : assigned all a = some x) : base ≤ a ∧ a < base + image.length := by
    cases hread : assigned kept a with
    | some y =>
      obtain ⟨s, hs, hread⟩ := (assigned_eq_some hkept).mp hread
      have hholds : s.Holds a := Segment.read_isSome.mp (by rw [hread]; rfl)
      exact ⟨(himage.base_le s hs).trans hholds.1, hholds.2.trans_le (himage.stop_le s hs)⟩
    | none =>
      obtain ⟨-, ⟨s, hs, hle⟩, t, ht, hlt⟩ := h.dropped a x ha hread
      exact ⟨(himage.base_le s hs).trans hle, hlt.trans_le (himage.stop_le t ht)⟩
  have hread {t : Segment β} (ht : t ∈ all) {a : ℕ} (ha : t.Holds a) : base ≤ a ∧ a < base + image.length := by
    obtain ⟨x, hx⟩ := exists_read ha
    exact hwithin ((assigned_eq_some hall).mpr ⟨t, ht, hx⟩)
  have hbase : ∀ t ∈ all, base ≤ t.addr := fun t ht => (hread ht (first_holds (hkeeps.nonempty t ht))).1
  have hstop : ∀ t ∈ all, t.stop ≤ base + image.length := by
    intro t ht
    obtain ⟨hlast, hsucc⟩ := last_holds (hkeeps.nonempty t ht)
    have hlt := (hread ht hlast).2
    omega
  refine ⟨hbase, ?_, hstop, ?_, fun i hi => ?_⟩
  · obtain ⟨s, hs, haddr⟩ := himage.base_mem
    by_cases hempty : s.bytes = []
    · obtain ⟨⟨t, ht, hle⟩, -⟩ := h.empty s hs hempty
      exact ⟨t, ht, le_antisymm (hle.trans haddr.le) (hbase t ht)⟩
    · obtain ⟨t, ht, hsame, -⟩ := hkeeps.part s hs hempty
      exact ⟨t, ht, hsame.trans haddr⟩
  · obtain ⟨s, hs, htop⟩ := himage.stop_mem
    by_cases hempty : s.bytes = []
    · obtain ⟨-, t, ht, hle⟩ := h.empty s hs hempty
      exact ⟨t, ht, le_antisymm (hstop t ht) (htop.symm.le.trans hle)⟩
    · obtain ⟨t, ht, hsame, hprefix⟩ := hkeeps.part s hs hempty
      have hlonger : s.stop ≤ t.stop := by
        have hlength := hprefix.length_le
        rw [Segment.stop, Segment.stop, hsame]
        omega
      exact ⟨t, ht, le_antisymm (hstop t ht) (htop.symm.le.trans hlonger)⟩
  · rw [himage.byte i hi]
    cases hx : assigned all (base + i) with
    | none =>
      have hnone : assigned kept (base + i) = none := by
        rw [Option.eq_none_iff_forall_ne_some]
        intro y hy
        rw [hkeeps.assigned hkept hall hy] at hx
        cases hx
      rw [hnone]
    | some x =>
      cases hy : assigned kept (base + i) with
      | none => rw [(h.dropped _ x hx hy).1]; rfl
      | some y =>
        rw [hkeeps.assigned hkept hall hy] at hx
        rw [Option.some.inj hx]

/-- The image of what is kept is that of all only where nothing is lost. -/
theorem IsImage.lossless (hall : Apart all) (himage : IsImage fill kept base image)
    (h : IsImage fill all base image) : Lossless fill kept all where
  dropped a x hx hnone := by
    obtain ⟨t, ht, hread⟩ := (assigned_eq_some hall).mp hx
    have hholds : t.Holds a := Segment.read_isSome.mp (by rw [hread]; rfl)
    have hle := (h.base_le t ht).trans hholds.1
    have hlt := hholds.2.trans_le (h.stop_le t ht)
    have haddr : base + (a - base) = a := by omega
    have hi : a - base < image.length := by omega
    have hkeptByte := himage.byte (a - base) hi
    have hallByte := h.byte (a - base) hi
    rw [haddr, hnone] at hkeptByte
    rw [haddr, hx, hkeptByte] at hallByte
    obtain ⟨s, hs, hbase⟩ := himage.base_mem
    obtain ⟨u, hu, htop⟩ := himage.stop_mem
    exact ⟨(Option.some.inj hallByte).symm, ⟨s, hs, hbase.trans_le hle⟩, u, hu, hlt.trans_eq htop.symm⟩
  empty s hs _ := by
    obtain ⟨t, ht, hbase⟩ := h.base_mem
    obtain ⟨u, hu, htop⟩ := h.stop_mem
    exact ⟨⟨t, ht, hbase.trans_le (himage.base_le s hs)⟩, u, hu, (himage.stop_le s hs).trans_eq htop.symm⟩

/-- What is left of a segment begins where it does, at or above the limit, and is a prefix of it. -/
def Trims (limit : ℕ) (f : Segment β → Option (Segment β)) : Prop :=
  ∀ s t, f s = some t → limit ≤ s.addr ∧ t.addr = s.addr ∧ t.bytes <+: s.bytes

namespace Trims

variable {limit : ℕ} {f : Segment β → Option (Segment β)} {segs : List (Segment β)}

theorem apart (hf : Trims limit f) (h : Apart segs) : Apart (segs.filterMap f) := by
  refine h.filterMap fun s t ht a hholds => ?_
  obtain ⟨-, haddr, hprefix⟩ := hf s t ht
  have hlength := hprefix.length_le
  unfold Segment.Holds Segment.stop at *
  omega

theorem keeps (hf : Trims limit f) : Keeps (segs.filterMap f) (segs.filterMap (Segment.above limit)) where
  nonempty t ht := by
    obtain ⟨s, -, habove⟩ := List.mem_filterMap.mp ht
    simp only [Segment.above] at habove
    split at habove
    case isTrue => cases habove
    case isFalse hne =>
      rw [← Option.some.inj habove]
      exact fun hempty => hne (List.isEmpty_iff.mpr hempty)
  part t ht hne := by
    obtain ⟨s, hs, hst⟩ := List.mem_filterMap.mp ht
    obtain ⟨hlimit, haddr, hprefix⟩ := hf s t hst
    have hbytes : s.bytes ≠ [] := by
      intro hempty
      rw [hempty] at hprefix
      exact hne (List.prefix_nil.mp hprefix)
    refine ⟨s, List.mem_filterMap.mpr ⟨s, hs, ?_⟩, haddr.symm, hprefix⟩
    have hzero : limit - s.addr = 0 := by omega
    simp only [Segment.above, hzero, List.drop_zero]
    rw [if_neg (fun hempty => hbytes (List.isEmpty_iff.mp hempty)), Nat.max_eq_right hlimit]

end Trims

theorem above_apart {limit : ℕ} {segs : List (Segment β)} (h : Apart segs) :
    Apart (segs.filterMap (Segment.above limit)) := by
  refine h.filterMap fun s t habove a hholds => ?_
  simp only [Segment.above] at habove
  split at habove
  case isTrue => cases habove
  case isFalse =>
    obtain rfl := Option.some.inj habove
    unfold Segment.Holds Segment.stop at *
    rw [List.length_drop] at hholds
    dsimp only at hholds
    omega

/-- The image of what is left of the segments is the image of all they have above the limit where nothing is lost. -/
theorem isImage_iff_lossless {limit : ℕ} {f : Segment β → Option (Segment β)} {segs : List (Segment β)}
    (hf : Trims limit f) (hapart : Apart segs) (himage : IsImage fill (segs.filterMap f) base image) :
    IsImage fill (segs.filterMap (Segment.above limit)) base image ↔
      Lossless fill (segs.filterMap f) (segs.filterMap (Segment.above limit)) :=
  ⟨himage.lossless (above_apart hapart),
    himage.of_lossless (hf.apart hapart) (above_apart hapart) hf.keeps⟩

end Lossless

end SlimeReceiver
