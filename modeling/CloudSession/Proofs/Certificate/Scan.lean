import CloudSession.Proofs.Certificate.Occurrence

/-!
# The leftmost scan of a bundle

The certificates of a bundle are found from left to right: each begins with the first opening marker
after the one before it, and ends with the first closing marker from there on. `IsLeftmostScan` says
this of the bundle as a whole, by positions in it. Every bundle can be scanned so in one way, and what
the scan finds are its certificates.

The closing marker of a certificate may share the dashes at the end of its opening marker, but no
more: so a certificate has both its markers, and the scan moves on.
-/

namespace CloudSession.Certificate

variable {bundle tail block rest : List UInt8} {stop : Nat}

/-! ## Markers -/

/-- How long the BEGIN marker is. -/
theorem length_beginMarker : beginMarker.length = 27 := by decide

/-- How long the END marker is. -/
theorem length_endMarker : endMarker.length = 25 := by decide

/-- The BEGIN marker is not empty. -/
theorem beginMarker_ne_nil : beginMarker ≠ [] := by decide

/-- The END marker is not empty. -/
theorem endMarker_ne_nil : endMarker ≠ [] := by decide

/-- The closing marker cannot begin before the last five bytes of an opening one. -/
theorem le_of_occursAt_endMarker (hopened : beginMarker <+: tail)
    (h : OccursAt endMarker tail stop) : 22 ≤ stop := by
  by_contra hlt
  obtain ⟨after, rfl⟩ := hopened
  have hhead : OccursAt (endMarker.take 6) (beginMarker ++ after) stop :=
    (List.take_prefix 6 endMarker).trans h
  have hwithin : OccursAt (endMarker.take 6) beginMarker stop := by
    refine hhead.of_append ?_
    rw [List.length_take, length_endMarker, length_beginMarker]
    omega
  have hnever : ∀ stop < 22, ¬ OccursAt (endMarker.take 6) beginMarker stop := by decide
  exact hnever stop (by omega) hwithin

/-! ## Blocks -/

/-- A block begins with an opening marker and ends with a closing one, and no closing marker in it
ends before it does. -/
structure IsBlock (block : List UInt8) : Prop where
  opened : beginMarker <+: block
  closed : endMarker <:+ block
  closedOnce : ∀ stop, OccursAt endMarker block stop → block.length ≤ stop + endMarker.length

/-- No certificate is closed in these bytes: where an opening marker stands, no closing marker starts
there or later. -/
def IsUnclosed (bytes : List UInt8) : Prop :=
  ∀ start stop, OccursAt beginMarker bytes start → OccursAt endMarker bytes stop → stop < start

/-- A block of a bundle after the bytes that precede it. -/
structure Piece where
  junk : List UInt8
  block : List UInt8

/-- The bytes of a piece. -/
def Piece.bytes (piece : Piece) : List UInt8 :=
  piece.junk ++ piece.block

/-- The bytes of pieces one after another. -/
def spell (pieces : List Piece) : List UInt8 :=
  pieces.flatMap Piece.bytes

/-- Pieces spell the first of them, and then the others. -/
theorem spell_cons (piece : Piece) (pieces : List Piece) :
    spell (piece :: pieces) = piece.bytes ++ spell pieces :=
  List.flatMap_cons

/-- The leftmost scan cuts a bundle into these pieces and the rest: of the opening markers that start
where the piece before a block ends, or later, the one that the block begins with is the first. -/
structure IsScan (pieces : List Piece) (rest : List UInt8) : Prop where
  blocks : ∀ piece ∈ pieces, IsBlock piece.block
  leftmost : ∀ before piece after, pieces = before ++ piece :: after → ∀ start,
    (spell before).length ≤ start → OccursAt beginMarker (spell pieces ++ rest) start →
      (spell before).length + piece.junk.length ≤ start
  unclosed : IsUnclosed rest

/-- The leftmost scan of a bundle finds these certificates. -/
def IsLeftmostScan (bundle : List UInt8) (certificates : List (List UInt8)) : Prop :=
  ∃ pieces rest, bundle = spell pieces ++ rest ∧ certificates = pieces.map Piece.block ∧
    IsScan pieces rest

/-! ## One block at a time -/

/-- The first block of a bundle stands at the end of this piece. -/
structure Piece.Leads (piece : Piece) (rest : List UInt8) : Prop where
  isBlock : IsBlock piece.block
  leftmost : ∀ start, OccursAt beginMarker (piece.bytes ++ rest) start → piece.junk.length ≤ start

variable {piece : Piece} {pieces : List Piece}

/-- The closing marker of a block is the first one, whatever follows the block. -/
theorem IsBlock.position?_endMarker (h : IsBlock block) (rest : List UInt8) :
    ∃ stop, position? endMarker (block ++ rest) = some stop ∧
      stop + endMarker.length = block.length := by
  obtain ⟨contents, hcontents⟩ := h.closed
  have hlength : contents.length + endMarker.length = block.length := by
    rw [← hcontents, List.length_append]
  have hstands : OccursAt endMarker block contents.length := by
    rw [← hcontents, ← Nat.add_zero contents.length, occursAt_append_iff]
    exact List.prefix_rfl
  refine ⟨contents.length, position?_eq_some_iff.mpr ⟨hstands.append rest, ?_⟩, hlength⟩
  intro earlier hearlier hoccurs
  have hlast := h.closedOnce earlier (hoccurs.of_append (by omega))
  omega

/-- The first BEGIN marker stands right behind the junk of a leading piece. -/
theorem Piece.Leads.position?_beginMarker (h : piece.Leads rest) :
    position? beginMarker (piece.bytes ++ rest) = some piece.junk.length := by
  refine position?_eq_some_iff.mpr ⟨?_, fun earlier hearlier hoccurs => ?_⟩
  · rw [Piece.bytes, List.append_assoc, ← Nat.add_zero piece.junk.length, occursAt_append_iff]
    exact h.isBlock.opened.trans (List.prefix_append _ _)
  · have hleft := h.leftmost earlier hoccurs
    omega

/-- A scan finds the block of a piece that leads, and goes on behind it. -/
theorem Piece.Leads.blocks_eq (h : piece.Leads rest) :
    blocks (piece.bytes ++ rest) = piece.block :: blocks rest := by
  obtain ⟨stop, hstop, hsize⟩ := h.isBlock.position?_endMarker rest
  have hdrop : (piece.bytes ++ rest).drop piece.junk.length = piece.block ++ rest := by
    rw [Piece.bytes, List.append_assoc, List.drop_left]
  rw [← hdrop] at hstop
  rw [blocks]
  split
  case h_1 hnone => simp [h.position?_beginMarker] at hnone
  case h_2 start hstart =>
    rw [h.position?_beginMarker] at hstart
    obtain rfl := Option.some.inj hstart
    simp only [hstop, hsize]
    rw [hdrop, List.take_left, List.drop_left]

/-- A scan finds nothing where no certificate is closed. -/
theorem IsUnclosed.blocks_eq (h : IsUnclosed bundle) : blocks bundle = [] := by
  rw [blocks]
  split
  case h_1 => rfl
  case h_2 start hstart =>
    have hopened := (position?_eq_some_iff.mp hstart).1
    have hnone : position? endMarker (bundle.drop start) = none := by
      refine position?_eq_none_iff.mpr fun stop hstop => ?_
      have hbefore := h start (start + stop) hopened ((occursAt_drop_iff stop).mp hstop)
      omega
    simp only [hnone]

/-- What is cut off after the first closing marker is a block. -/
theorem isBlock_take (hopened : beginMarker <+: tail)
    (hstop : position? endMarker tail = some stop) :
    IsBlock (tail.take (stop + endMarker.length)) := by
  obtain ⟨hcloses, hfirst⟩ := position?_eq_some_iff.mp hstop
  have hovershoot := le_of_occursAt_endMarker hopened hcloses
  refine ⟨?_, ?_, fun earlier hearlier => ?_⟩
  · refine List.prefix_of_prefix_length_le hopened (List.take_prefix _ _) ?_
    have hfits := hcloses.add_length_le endMarker_ne_nil
    rw [List.length_take, length_beginMarker, length_endMarker]
    rw [length_endMarker] at hfits
    omega
  · rw [List.take_add, ← List.prefix_iff_eq_take.mp hcloses]
    exact List.suffix_append _ _
  · have hlate : stop ≤ earlier := by
      by_contra hlt
      have hoccurs := hearlier.append (tail.drop (stop + endMarker.length))
      rw [List.take_append_drop] at hoccurs
      exact hfirst earlier (by omega) hoccurs
    rw [List.length_take]
    omega

/-- A bundle in which a certificate is closed has a first block. -/
theorem exists_leads_or_isUnclosed (bundle : List UInt8) :
    (∃ piece rest, bundle = Piece.bytes piece ++ rest ∧ piece.Leads rest) ∨ IsUnclosed bundle := by
  cases hstart : position? beginMarker bundle with
  | none => exact .inr fun start _ hopened _ => absurd hopened (position?_eq_none_iff.mp hstart start)
  | some start =>
    obtain ⟨hopened, hfirst⟩ := position?_eq_some_iff.mp hstart
    cases hstop : position? endMarker (bundle.drop start) with
    | none =>
      refine .inr fun later stop hlater hcloses => ?_
      by_contra hle
      have hleft : start ≤ later := Nat.le_of_not_lt fun hlt => hfirst later hlt hlater
      refine position?_eq_none_iff.mp hstop (stop - start) ?_
      rwa [occursAt_drop_iff, Nat.add_sub_cancel' (by omega)]
    | some stop =>
      have hcut : bundle.take start ++ (bundle.drop start).take (stop + endMarker.length) ++
          (bundle.drop start).drop (stop + endMarker.length) = bundle := by
        rw [List.append_assoc, List.take_append_drop, List.take_append_drop]
      refine .inl ⟨⟨bundle.take start, (bundle.drop start).take (stop + endMarker.length)⟩, _,
        hcut.symm, isBlock_take hopened hstop, fun other hother => ?_⟩
      rw [Piece.bytes, hcut] at hother
      have hleft : start ≤ other := Nat.le_of_not_lt fun hlt => hfirst other hlt hother
      exact (List.length_take_le start bundle).trans hleft

/-- Induction along a scan. -/
theorem scan_induction {motive : List UInt8 → Prop}
    (unclosed : ∀ rest, IsUnclosed rest → motive rest)
    (piece : ∀ piece rest, Piece.Leads piece rest → motive rest → motive (piece.bytes ++ rest))
    (bundle : List UInt8) : motive bundle := by
  induction hlength : bundle.length using Nat.strong_induction_on generalizing bundle with
  | _ length ih =>
    subst hlength
    rcases exists_leads_or_isUnclosed bundle with ⟨first, rest, rfl, hleads⟩ | hunclosed
    · have hpos := hleads.isBlock.opened.length_le
      have hshorter : rest.length < (first.bytes ++ rest).length := by
        rw [length_beginMarker] at hpos
        rw [Piece.bytes, List.length_append, List.length_append]
        omega
      exact piece first rest hleads (ih _ hshorter rest rfl)
    · exact unclosed bundle hunclosed

/-! ## The whole bundle -/

/-- Nothing is found where no certificate is closed. -/
theorem isScan_nil_iff : IsScan [] rest ↔ IsUnclosed rest :=
  ⟨IsScan.unclosed, fun h => ⟨by simp, by simp, h⟩⟩

/-- A scan consists of a first block and a scan of what follows it. -/
theorem isScan_cons_iff :
    IsScan (piece :: pieces) rest ↔ piece.Leads (spell pieces ++ rest) ∧ IsScan pieces rest := by
  have hspell : spell (piece :: pieces) ++ rest = piece.bytes ++ (spell pieces ++ rest) := by
    rw [spell_cons, List.append_assoc]
  constructor
  · rintro ⟨hblocks, hleftmost, hunclosed⟩
    refine ⟨⟨hblocks piece List.mem_cons_self, fun start hstart => ?_⟩,
      fun later hlater => hblocks later (List.mem_cons_of_mem _ hlater), ?_, hunclosed⟩
    · simpa [spell] using hleftmost [] piece pieces rfl start (Nat.zero_le _) (hspell ▸ hstart)
    · rintro before later after rfl start hstart hoccurs
      have hshifted := hleftmost (piece :: before) later after rfl (piece.bytes.length + start)
        (by rw [spell_cons, List.length_append]; omega)
        (by rw [hspell]; exact occursAt_append_iff.mpr hoccurs)
      rw [spell_cons, List.length_append] at hshifted
      omega
  · rintro ⟨⟨hblock, hfirst⟩, hblocks, hleftmost, hunclosed⟩
    refine ⟨List.forall_mem_cons.mpr ⟨hblock, hblocks⟩, ?_, hunclosed⟩
    intro before later after hsplit start hstart hoccurs
    rw [hspell] at hoccurs
    cases before with
    | nil =>
      obtain ⟨rfl, rfl⟩ := List.cons.inj hsplit
      simpa [spell] using hfirst start hoccurs
    | cons first before =>
      obtain ⟨rfl, rfl⟩ := List.cons.inj hsplit
      rw [spell_cons, List.length_append] at hstart ⊢
      obtain ⟨inner, rfl⟩ := Nat.exists_eq_add_of_le (show piece.bytes.length ≤ start by omega)
      have hinner := hleftmost before later after rfl inner (by omega)
        (occursAt_append_iff.mp hoccurs)
      omega

/-- Every bundle can be scanned to its end. -/
theorem exists_isScan (bundle : List UInt8) :
    ∃ pieces rest, bundle = spell pieces ++ rest ∧ IsScan pieces rest := by
  induction bundle using scan_induction with
  | unclosed rest hunclosed => exact ⟨[], rest, rfl, isScan_nil_iff.mpr hunclosed⟩
  | piece piece rest hleads ih =>
    obtain ⟨pieces, last, rfl, hscan⟩ := ih
    exact ⟨piece :: pieces, last, by rw [spell_cons, List.append_assoc],
      isScan_cons_iff.mpr ⟨hleads, hscan⟩⟩

/-- The blocks of a scanned bundle are those of its pieces. -/
theorem IsScan.blocks_eq (h : IsScan pieces rest) :
    Certificate.blocks (spell pieces ++ rest) = pieces.map Piece.block := by
  induction pieces with
  | nil => exact h.unclosed.blocks_eq
  | cons piece pieces ih =>
    obtain ⟨hleads, hscan⟩ := isScan_cons_iff.mp h
    rw [spell_cons, List.append_assoc, hleads.blocks_eq, ih hscan, List.map_cons]

/-- The certificates of a bundle are those that its leftmost scan finds, and only those. -/
theorem blocks_eq_iff {certificates : List (List UInt8)} :
    blocks bundle = certificates ↔ IsLeftmostScan bundle certificates := by
  constructor
  · rintro rfl
    obtain ⟨pieces, rest, rfl, hscan⟩ := exists_isScan bundle
    exact ⟨pieces, rest, rfl, hscan.blocks_eq, hscan⟩
  · rintro ⟨pieces, rest, rfl, rfl, hscan⟩
    exact hscan.blocks_eq

end CloudSession.Certificate
