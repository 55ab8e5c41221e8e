import CloudSession.Proofs.Certificate.Scan

/-!
# Certificates without dashes

Markers begin and end with dashes. So where a certificate and what surrounds it have no others, its
markers are the only ones, and it is found as it is. This holds of all contents between the markers
but `END CERTIFICATE`: with the dashes around it, it spells a closing marker, and a block ends there.
-/

namespace CloudSession.Certificate

variable {contents junk rest one other : List UInt8} {piece : Piece} {pieces : List Piece}
  {start : Nat}

/-- The byte that both markers begin and end with. -/
def dash : UInt8 := 45

/-- The dashes at either end of a marker. -/
def dashes : List UInt8 := List.replicate 5 dash

/-- What the closing marker says between its dashes. -/
def closingLabel : List UInt8 := ascii "END CERTIFICATE"

/-- The opening marker without the dashes at its end. -/
def opener : List UInt8 := ascii "-----BEGIN CERTIFICATE"

/-- Contents between the two markers of a certificate. -/
def enclosed (contents : List UInt8) : List UInt8 :=
  beginMarker ++ contents ++ endMarker

/-- Certificates, with the junk before each of them and the rest of the bundle, that have no dashes
but those of their markers. -/
structure AreDashless (pieces : List Piece) (rest : List UInt8) : Prop where
  junk : ∀ piece ∈ pieces, dash ∉ piece.junk
  contents : ∀ piece ∈ pieces, ∃ contents, piece.block = enclosed contents ∧ dash ∉ contents
  rest : dash ∉ rest

/-! ## Junk without dashes -/

/-- An opening marker does not begin among bytes without dashes. -/
theorem length_le_of_occursAt_beginMarker (hjunk : dash ∉ junk)
    (h : OccursAt beginMarker (junk ++ rest) start) : junk.length ≤ start := by
  have hmarker : beginMarker = dash :: beginMarker.tail := by decide
  rw [hmarker] at h
  exact h.length_le_of_not_mem hjunk

/-- Without dashes no certificate is closed. -/
theorem isUnclosed_of_not_mem (hrest : dash ∉ rest) : IsUnclosed rest := by
  intro start _ hopened _
  have hfits := hopened.add_length_le beginMarker_ne_nil
  rw [← List.append_nil rest] at hopened
  have hbeyond := length_le_of_occursAt_beginMarker hrest hopened
  rw [length_beginMarker] at hfits
  omega

/-- Bytes that are too few for an opening marker close no certificate. -/
theorem isUnclosed_of_length_lt (hshort : rest.length < beginMarker.length) : IsUnclosed rest := by
  intro start _ hopened _
  have hfits := hopened.add_length_le beginMarker_ne_nil
  omega

/-- A block behind junk without dashes is the first one. -/
theorem Piece.leads_of_not_mem (piece : Piece) (hjunk : dash ∉ piece.junk)
    (hblock : IsBlock piece.block) (rest : List UInt8) : piece.Leads rest := by
  refine ⟨hblock, fun start hstart => ?_⟩
  rw [Piece.bytes, List.append_assoc] at hstart
  exact length_le_of_occursAt_beginMarker hjunk hstart

/-- Blocks with junk around them that has no dashes are found as they are. -/
theorem isScan_of_not_mem (hjunk : ∀ piece ∈ pieces, dash ∉ piece.junk)
    (hblocks : ∀ piece ∈ pieces, IsBlock piece.block) (hrest : dash ∉ rest) :
    IsScan pieces rest := by
  induction pieces with
  | nil => exact isScan_nil_iff.mpr (isUnclosed_of_not_mem hrest)
  | cons piece pieces ih =>
    obtain ⟨hfirst, hothers⟩ := List.forall_mem_cons.mp hjunk
    obtain ⟨hblock, hmore⟩ := List.forall_mem_cons.mp hblocks
    exact isScan_cons_iff.mpr ⟨piece.leads_of_not_mem hfirst hblock _, ih hothers hmore⟩

/-! ## Contents without dashes -/

/-- The closing marker is its label between dashes. -/
theorem endMarker_eq : endMarker = dashes ++ closingLabel ++ dashes := by decide

/-- The last dashes of the opening marker stand before the contents. -/
theorem enclosed_eq (contents : List UInt8) :
    enclosed contents = opener ++ (dashes ++ (contents ++ endMarker)) := by
  have hopening : beginMarker = opener ++ dashes := by decide
  rw [enclosed, hopening, List.append_assoc, List.append_assoc]

/-- Bytes without dashes are told by what stands before the first dash. -/
theorem eq_of_append_dash {after later : List UInt8} (hone : dash ∉ one) (hother : dash ∉ other)
    (h : one ++ dash :: after = other ++ dash :: later) : one = other := by
  have htaken {front : List UInt8} (hfront : dash ∉ front) (back : List UInt8) :
      (front ++ dash :: back).takeWhile (· ≠ dash) = front := by
    have hkept : ∀ b ∈ front, decide (b ≠ dash) = true := fun b hb =>
      decide_eq_true (ne_of_mem_of_not_mem hb hfront)
    rw [List.takeWhile_append_of_pos hkept, List.takeWhile_cons_of_neg (by simp), List.append_nil]
  rw [← htaken hone after, h, htaken hother later]

/-- A closing marker that begins among the last dashes of the opening marker or in the contents takes
all those dashes, and has the contents for its label. -/
theorem eq_closingLabel_of_occursAt (hcontents : dash ∉ contents)
    (hstart : start < 5 + contents.length)
    (h : OccursAt endMarker (dashes ++ (contents ++ endMarker)) start) : contents = closingLabel := by
  rcases Nat.eq_zero_or_pos start with rfl | hpos
  · obtain ⟨after, hafter⟩ := occursAt_zero_iff.mp h
    rw [endMarker_eq, List.append_assoc, List.append_assoc, List.append_right_inj] at hafter
    have hlabel : dash ∉ closingLabel := by decide
    exact (eq_of_append_dash hlabel hcontents hafter).symm
  · by_cases hempty : contents = []
    · subst hempty
      have hnever : ∀ start < 5, 0 < start →
          ¬ OccursAt endMarker (dashes ++ ([] ++ endMarker)) start := by decide
      exact absurd h (hnever start hstart hpos)
    · -- One of the dashes at the beginning of the marker would be a byte of the contents.
      have hsome := List.length_pos_iff.mpr hempty
      have hdashes : ∀ i < 5, endMarker[i]? = some dash := by decide
      obtain ⟨i, k, hi, hk, hsame⟩ : ∃ i k, i < 5 ∧ k < contents.length ∧ start + i = 5 + k := by
        rcases Nat.lt_or_ge start 5 with hlt | hge
        · exact ⟨5 - start, 0, by omega, hsome, by omega⟩
        · exact ⟨0, start - 5, by omega, by omega, by omega⟩
      have hbyte := h.getElem? (show i < endMarker.length by rw [length_endMarker]; omega)
      rw [hdashes i hi, hsame, List.getElem?_append_right (Nat.le_add_right 5 k),
        List.getElem?_append_left (by simpa [dashes] using hk)] at hbyte
      exact absurd (List.mem_of_getElem? hbyte) hcontents

/-- Contents without dashes make a block, unless they are the label of the closing marker. -/
theorem isBlock_enclosed_iff (hcontents : dash ∉ contents) :
    IsBlock (enclosed contents) ↔ contents ≠ closingLabel := by
  constructor
  · rintro hblock rfl
    have hearly : OccursAt endMarker (enclosed closingLabel) 22 := by decide
    have hlast := hblock.closedOnce 22 hearly
    revert hlast
    decide
  · intro hne
    have hopened : beginMarker <+: enclosed contents := by
      rw [enclosed, List.append_assoc]
      exact List.prefix_append _ _
    refine ⟨hopened, List.suffix_append _ _, fun stop hstop => ?_⟩
    obtain ⟨start, rfl⟩ := Nat.exists_eq_add_of_le (le_of_occursAt_endMarker hopened hstop)
    by_contra hearly
    have hlength : (enclosed contents).length = 52 + contents.length := by
      rw [enclosed, List.length_append, List.length_append, length_beginMarker, length_endMarker]
      omega
    rw [hlength, length_endMarker] at hearly
    have hopener : opener.length = 22 := by decide
    rw [enclosed_eq, ← hopener, occursAt_append_iff] at hstop
    exact hne (eq_closingLabel_of_occursAt hcontents (by omega) hstop)

namespace AreDashless

/-- What stands between the markers of a certificate is a block, unless it is the label of the closing
marker. -/
theorem isBlock_iff (h : AreDashless pieces rest) (hpiece : piece ∈ pieces) :
    IsBlock piece.block ↔ piece.block ≠ enclosed closingLabel := by
  obtain ⟨contents, hblock, hcontents⟩ := h.contents piece hpiece
  rw [hblock, isBlock_enclosed_iff hcontents, enclosed, enclosed, ne_eq, ne_eq,
    List.append_left_inj, List.append_right_inj]

/-- Certificates without dashes are found as they are, where none has the label of the closing marker
for its contents. -/
theorem blocks_eq (h : AreDashless pieces rest)
    (hlabel : ∀ piece ∈ pieces, piece.block ≠ enclosed closingLabel) :
    blocks (spell pieces ++ rest) = pieces.map Piece.block := by
  have hblocks : ∀ piece ∈ pieces, IsBlock piece.block := fun piece hpiece =>
    (h.isBlock_iff hpiece).mpr (hlabel piece hpiece)
  exact (isScan_of_not_mem h.junk hblocks h.rest).blocks_eq

/-- Certificates without dashes are found as they are, unless one has the label of the closing marker
for its contents. -/
theorem blocks_eq_iff (h : AreDashless pieces rest) :
    blocks (spell pieces ++ rest) = pieces.map Piece.block ↔
      ∀ piece ∈ pieces, piece.block ≠ enclosed closingLabel := by
  refine ⟨fun hblocks piece hpiece => (h.isBlock_iff hpiece).mp ?_, h.blocks_eq⟩
  obtain ⟨found, last, -, hfound, hscan⟩ := Certificate.blocks_eq_iff.mp hblocks
  have hmem : piece.block ∈ found.map Piece.block := hfound ▸ List.mem_map_of_mem hpiece
  obtain ⟨other, hother, hsame⟩ := List.mem_map.mp hmem
  rw [← hsame]
  exact hscan.blocks other hother

end AreDashless

/-- The certificates of a bundle are those that its leftmost scan finds. In particular, certificates
without dashes among junk without dashes are found as they are, in their order, unless one has the
label of the closing marker for its contents. -/
theorem blocks_leftmost (bundle : List UInt8) :
    (∀ certificates, blocks bundle = certificates ↔ IsLeftmostScan bundle certificates) ∧
      ∀ pieces rest, bundle = spell pieces ++ rest → AreDashless pieces rest →
        (blocks bundle = pieces.map Piece.block ↔
          ∀ piece ∈ pieces, piece.block ≠ enclosed closingLabel) := by
  refine ⟨fun certificates => blocks_eq_iff, ?_⟩
  rintro pieces rest rfl hdashless
  exact hdashless.blocks_eq_iff

/-- Two blocks with junk before, between and after them. -/
def twoBlocks : List Piece :=
  [⟨ascii "junk before\n", enclosed (ascii "\nAAAA\n")⟩,
    ⟨ascii "\nEND CERTIFICATE\n", enclosed (ascii "\nBBBB\n")⟩]

/-- Both blocks are found as they are. -/
theorem twoBlocks_leftmost :
    AreDashless twoBlocks (ascii "\n") ∧
      blocks (spell twoBlocks ++ ascii "\n") = twoBlocks.map Piece.block := by
  have hdashless : AreDashless twoBlocks (ascii "\n") := by
    refine ⟨by decide, ?_, by decide⟩
    refine List.forall_mem_cons.mpr ⟨⟨_, rfl, by decide⟩, List.forall_mem_singleton.mpr ?_⟩
    exact ⟨_, rfl, by decide⟩
  obtain ⟨-, hfound⟩ := blocks_leftmost (spell twoBlocks ++ ascii "\n")
  have hblocks := hfound twoBlocks (ascii "\n") rfl hdashless
  exact ⟨hdashless, hblocks.mpr (by decide)⟩

/-- Markers that share their dashes are a block. -/
theorem isBlock_opener_append : IsBlock (opener ++ endMarker) := by
  have hopened : beginMarker <+: opener ++ endMarker := by decide
  refine ⟨hopened, List.suffix_append _ _, fun stop hstop => ?_⟩
  have hlate := le_of_occursAt_endMarker hopened hstop
  have hlength : (opener ++ endMarker).length = 47 := by decide
  rw [hlength, length_endMarker]
  omega

/-- A certificate with the label of the closing marker for its contents, and nothing else. -/
def labelled : List Piece :=
  [⟨[], enclosed closingLabel⟩]

/-- It has no dashes but those of its markers, and yet it is not found as it is: the closing marker
that its contents spell with the dashes around them ends the block early. -/
theorem labelled_cutShort :
    AreDashless labelled [] ∧
      blocks (spell labelled ++ []) = [opener ++ endMarker] ∧
      blocks (spell labelled ++ []) ≠ labelled.map Piece.block := by
  have hdashless : AreDashless labelled [] :=
    ⟨by decide, List.forall_mem_singleton.mpr ⟨_, rfl, by decide⟩, by decide⟩
  let shared : Piece := ⟨[], opener ++ endMarker⟩
  have hbytes : spell labelled ++ [] = shared.bytes ++ (closingLabel ++ dashes) := by decide
  have hcut : blocks (spell labelled ++ []) = [opener ++ endMarker] := by
    rw [hbytes, (shared.leads_of_not_mem (by decide) isBlock_opener_append _).blocks_eq,
      (isUnclosed_of_length_lt (by decide)).blocks_eq]
  exact ⟨hdashless, hcut, hcut ▸ by decide⟩

end CloudSession.Certificate
