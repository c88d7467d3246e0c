import LuvFlicker.Fix.Session

/-!
# FIX messages read back

A message is sound exactly when its body is shorter than the array it is printed
into, the whole of it fits the buffer, and its values hold no byte that ends a
field or a view early.
-/

namespace LuvFlicker.Fix

open Bytes Block List Arg Decimal Slot FixSession UInt64

variable {slots : List Slot} {capacity : Nat} {maxLen : UInt64} {buffers : Buffers} {text : List UInt8}

def Arg.SohFree : Arg → Prop
  | lit literal => soh ∉ literal
  | str view => soh ∉ view
  | _ => True

structure Legal (slots : List Slot) : Prop where
  nonempty : slots ≠ []
  tags : (8 :: 9 :: slots.map Slot.tag).Nodup
  few : slots.length ≤ 60
  sohFree : ∀ slot ∈ slots, slot.arg.SohFree

/-! ## What is printed -/

variable {n : Nat}

theorem toInt_natCast (h : n < 2 ^ 31) : toInt n = n := by
  rw [toInt, BitVec.toInt_ofInt]
  apply Int.bmod_eq_of_le <;> omega

variable {view : List UInt8}

theorem zero_notMem_printView (view : List UInt8) : 0 ∉ printView view := by
  rw [printView]
  split
  all_goals exact Text.zero_notMem_cstr

theorem mem_of_mem_printView {byte : UInt8} (h : byte ∈ printView view) : byte ∈ view := by
  rw [printView] at h
  split at h
  · exact Text.cstr_isPrefix.subset h
  · exact mem_of_mem_take (Text.cstr_isPrefix.subset h)

variable {slot : Slot}

theorem soh_notMem_print (h : Legal slots) (hSlot : slot ∈ slots) (hChar : ∀ c, slot.arg = .chr c → c ≠ soh) :
    soh ∉ slot.arg.print := by
  have hFree := h.sohFree slot hSlot
  cases hArg : slot.arg with
  | lit literal =>
    rw [hArg] at hFree
    exact hFree
  | str view =>
    rw [hArg] at hFree
    exact fun hMem => hFree (mem_of_mem_printView hMem)
  | chr c => exact fun hMem => hChar c hArg (mem_singleton.mp hMem).symm
  | unsigned n => exact notMem_text rfl
  | signed i => exact notMem_signed rfl (by decide)

/-! ## The bytes of a message -/

theorem signed_natCast (n : Nat) : Decimal.signed n = Decimal.text n := by
  rw [Decimal.signed, if_neg (by omega), Int.natAbs_natCast]

theorem header_eq (n : Nat) :
    header n = (⟨8, ascii "FIX.4.4"⟩ : FixField).text ++ (⟨9, Decimal.text n⟩ : FixField).text := by
  have hBegin : ascii "8=FIX.4.4\x01" = (⟨8, ascii "FIX.4.4"⟩ : FixField).text := by decide
  have hLength : (⟨9, Decimal.text n⟩ : FixField).text = ascii "9=" ++ Decimal.text n ++ [soh] := by
    have hTag : text (9 : UInt32).toNat = [57] := by decide
    rw [FixField.text, hTag]
    rfl
  rw [header, signed_natCast, hBegin, hLength]

theorem length_header_le (h : n < 2 ^ 31) : (header n).length ≤ 23 := by
  have hDigits := length_text_le (k := 10) (by decide) (h.trans (by decide))
  rw [header, signed_natCast, length_append, length_append, length_append]
  change 10 + (2 + _ + 1) ≤ 23
  omega

theorem snprintfLength_of_lt (h : text.length < 2 ^ 31) : snprintfLength text = text.length := if_pos h

theorem length_snprintfStored (hPos : 0 < capacity) :
    (snprintfStored capacity text).length = min (capacity - 1) text.length + 1 := by
  rw [snprintfStored, if_neg (ne_of_gt hPos), length_append, length_take, length_singleton]

theorem length_snprintfStored_le (capacity : Nat) (text : List UInt8) :
    (snprintfStored capacity text).length ≤ capacity := by
  rcases Nat.eq_zero_or_pos capacity with rfl | hPos
  · exact le_refl 0
  · rw [length_snprintfStored hPos]
    omega

theorem toNat_ofInt_natCast (h : n < 2 ^ 64) : (ofInt n).toNat = n := by
  have hMod : ((n : Int) % 2 ^ 64).toNat = n := by omega
  rw [ofInt, hMod, toNat_ofNat_of_lt' h]

theorem payload_lt (h : n < 2 ^ 30) : (header n).length + n < 2 ^ 31 := by
  have hHeader := length_header_le (h.trans (by decide))
  omega

theorem toNat_totalPayload (h : (header n).length + n < 2 ^ 31) : (totalPayload n).toNat = (header n).length + n := by
  rw [totalPayload, ← Int.natCast_add, toInt_natCast h, toNat_ofInt_natCast (by omega)]

theorem take_trailer {space : Nat} (h : 7 ≤ space) (digits : List UInt8) (hDigits : digits.length = 3) :
    ∃ last, (last = soh ∨ last = 0) ∧
      (snprintfStored space (ascii "10=" ++ (digits ++ [soh]))).take 7 = ascii "10=" ++ (digits ++ [last]) := by
  have hFront : (ascii "10=" ++ digits).length = 6 := by
    rw [length_append, hDigits]
    rfl
  have hWhole (last : UInt8) : (ascii "10=" ++ digits ++ [last]).length = 7 := by
    rw [length_append, hFront, length_singleton]
  rw [snprintfStored, if_neg (by omega), ← append_assoc]
  rcases lt_or_ge 7 space with _ | hShort
  · refine ⟨soh, .inl rfl, ?_⟩
    have hAll : (ascii "10=" ++ digits ++ [soh]).take (space - 1) = ascii "10=" ++ digits ++ [soh] :=
      take_of_length_le (by rw [hWhole]; omega)
    rw [hAll, take_left' (hWhole soh), append_assoc]
  · obtain rfl : space = 7 := le_antisymm hShort h
    refine ⟨0, .inr rfl, ?_⟩
    rw [take_left' hFront, take_of_length_le (hWhole 0).le, append_assoc]

theorem length_trailer {space : Nat} (h : 7 ≤ space) (digits : List UInt8) (hDigits : digits.length = 3) :
    7 ≤ (snprintfStored space (ascii "10=" ++ (digits ++ [soh]))).length := by
  obtain ⟨_, _, hTake⟩ := take_trailer h digits hDigits
  have hLength := congrArg List.length hTake
  rw [length_take, length_append, length_append, hDigits] at hLength
  change min 7 _ = 7 at hLength
  omega

section Assemble

variable (hText : (header text.length).length + text.length < 2 ^ 31)

include hText

theorem read_assemble : (assemble capacity text maxLen buffers).read = text.length := by
  change (ofInt (snprintfLength text)).toNat = _
  rw [snprintfLength_of_lt (by omega), toNat_ofInt_natCast (by omega)]

theorem toNat_total : (totalPayload (snprintfLength text)).toNat = (header text.length).length + text.length := by
  rw [snprintfLength_of_lt (by omega), toNat_totalPayload hText]

theorem ret_assemble :
    (assemble capacity text maxLen buffers).ret.toNat = (header text.length).length + text.length + 7 := by
  change (totalPayload (snprintfLength text) + 7).toNat = _
  rw [UInt64.toNat_add, toNat_total hText]
  exact Nat.mod_eq_of_lt (by change _ + 7 < 2 ^ 64; omega)

/-- What the array holds of the text stands behind the header, whether or not the rest fits. -/
theorem message_front {front : List UInt8} (hFront : front <+: text) (hStored : front.length < capacity) :
    ∃ rest, (assemble capacity text maxLen buffers).message = header text.length ++ (front ++ rest) := by
  have hLe := hFront.length_le
  have hBody : slice (memcpy buffers.body 0 (snprintfStored capacity text)) 0 front.length = front := by
    have hArray := @length_snprintfStored capacity text (by omega)
    have hTake : (text.take (capacity - 1)).take front.length = front := by
      rw [take_take, min_eq_left (by omega), ← prefix_iff_eq_take.mp hFront]
    rw [← take_slice _ (by omega : front.length ≤ (snprintfStored capacity text).length), slice_memcpy, snprintfStored,
      if_neg (by omega), take_append_of_le_length (by rw [length_take]; omega), hTake]
  have hCopied : (ofInt (snprintfLength text)).toNat = text.length := by
    rw [snprintfLength_of_lt (by omega), toNat_ofInt_natCast (by omega)]
  have hSplit : (header text.length).length + text.length + 7 =
      (header text.length).length + front.length + (text.length - front.length + 7) := by omega
  have hAppend := slice_memcpy_append (memcpy buffers.out 0 (header text.length)) (header text.length).length
    (slice (memcpy buffers.body 0 (snprintfStored capacity text)) 0 text.length)
  rw [slice_memcpy, length_slice] at hAppend
  have hTaken : slice (assemble capacity text maxLen buffers).out 0 ((header text.length).length + front.length) =
      header text.length ++ front := by
    rw [assemble]
    dsimp only
    rw [hCopied, toNat_total hText, slice_memcpy_of_le _ _ (by omega), snprintfLength_of_lt (by omega),
      ← take_slice _ (Nat.add_le_add_left hLe _), hAppend, take_length_add_append, take_slice _ hLe, hBody]
  exact ⟨_, by rw [Formatted.message, ret_assemble hText, hSplit, slice_add, hTaken, append_assoc]⟩

variable (hRoom : (header text.length).length + text.length + 7 ≤ maxLen.toNat)

include hRoom

theorem space_assemble : (maxLen - totalPayload (snprintfLength text)).toNat =
    maxLen.toNat - ((header text.length).length + text.length) := by
  have hLe : totalPayload (snprintfLength text) ≤ maxLen := by
    rw [UInt64.le_iff_toNat_le, toNat_total hText]
    omega
  rw [UInt64.toNat_sub_of_le _ _ hLe, toNat_total hText]

theorem extent_assemble : (assemble capacity text maxLen buffers).extent ≤ maxLen.toNat := by
  have hTotal := toNat_total hText
  have hSpace := space_assemble hText hRoom
  refine Nat.max_le.mpr ⟨?_, ?_⟩
  · rw [snprintfLength_of_lt (by omega), toNat_ofInt_natCast (by omega)]
    omega
  · refine (Nat.add_le_add_left (length_snprintfStored_le ..) _).trans ?_
    omega

theorem message_assemble (buffers : Buffers) (hRead : text.length ≤ (snprintfStored capacity text).length) :
    ∃ last, (last = soh ∨ last = 0) ∧ (assemble capacity text maxLen buffers).message =
      header text.length ++ (snprintfStored capacity text).take text.length ++ (ascii "10=" ++ (padded
        (byteSum (header text.length ++ (snprintfStored capacity text).take text.length) % 256).toNat ++ [last])) := by
  have hBody : slice (memcpy buffers.body 0 (snprintfStored capacity text)) 0 text.length =
      (snprintfStored capacity text).take text.length := by
    rw [← take_slice _ hRead, slice_memcpy]
  have hLength : (snprintfLength text : Int) = text.length := snprintfLength_of_lt (by omega)
  have hCopied : (ofInt (text.length : Int)).toNat = text.length := toNat_ofInt_natCast (by omega)
  have hTotal := toNat_total hText
  have hSpace := space_assemble hText hRoom
  have hFront (out : Nat → UInt8) : slice (memcpy (memcpy out 0 (header text.length)) (header text.length).length
      ((snprintfStored capacity text).take text.length)) 0 ((header text.length).length + text.length) =
      header text.length ++ (snprintfStored capacity text).take text.length := by
    have hTake : ((snprintfStored capacity text).take text.length).length = text.length := by
      rw [length_take, min_eq_left hRead]
    have hAppend := slice_memcpy_append (memcpy out 0 (header text.length)) (header text.length).length
      ((snprintfStored capacity text).take text.length)
    rw [hTake, slice_memcpy] at hAppend
    exact hAppend
  rw [Formatted.message, ret_assemble hText, assemble]
  rw [hSpace, hTotal, hLength, hCopied, hBody, hFront]
  generalize hSum : (byteSum (header text.length ++ (snprintfStored capacity text).take text.length) % 256).toNat = sum
  have hSeven : 7 ≤ maxLen.toNat - ((header text.length).length + text.length) := by omega
  obtain ⟨last, hLast, hTrailer⟩ := take_trailer hSeven (padded sum) rfl
  refine ⟨last, hLast, ?_⟩
  have hLong := length_trailer hSeven (padded sum) rfl
  rw [slice_add, slice_memcpy_of_le _ _ (zero_add _).le, hFront, zero_add, ← take_slice _ hLong, slice_memcpy, hTrailer]

end Assemble

/-! ## Reading a message -/

theorem parse_header {fields : List FixField} (hSoh : ∀ field ∈ fields, soh ∉ field.val) (hFew : fields.length ≤ 62)
    (n : Nat) (rest : List UInt8) :
    parse (header n ++ (fields.flatMap FixField.text ++ rest)) = ((parseLoop (62 - fields.length) rest).1,
        ⟨8, ascii "FIX.4.4"⟩ :: ⟨9, Decimal.text n⟩ :: (fields ++ (parseLoop (62 - fields.length) rest).2)) := by
  have hAll : ∀ field ∈ (⟨8, ascii "FIX.4.4"⟩ :: ⟨9, Decimal.text n⟩ :: fields : List FixField), soh ∉ field.val := by
    rw [forall_mem_cons, forall_mem_cons]
    exact ⟨by decide, notMem_text rfl, hSoh⟩
  have hLoop := parseLoop_fields (62 - fields.length) hAll rest
  have hMax : (⟨8, ascii "FIX.4.4"⟩ :: ⟨9, text n⟩ :: fields : List FixField).length + (62 - fields.length) =
      kMaxFields := by
    rw [length_cons, length_cons, kMaxFields]
    omega
  rw [hMax, flatMap_cons, flatMap_cons, ← append_assoc, ← header_eq, append_assoc] at hLoop
  rw [parse, hLoop]
  exact Prod.ext (Bool.and_true _) rfl

theorem parseLoop_trailer {room : Nat} {n : Nat} (hn : n < 1000) {last : UInt8} (hLast : last = soh ∨ last = 0) :
    (parseLoop (room + 1) (ascii "10=" ++ (padded n ++ [last]))).1 = true := by
  have hTag : ascii "10=" = text (10 : UInt32).toNat ++ [equals] := by decide
  have hDigits {byte : UInt8} (h : isDigit byte = false) : byte ∉ padded n := by
    intro hMem
    cases (isDigit_of_mem_padded hn hMem).symm.trans h
  rw [hTag, append_assoc, singleton_append]
  rcases hLast with rfl | rfl
  · have hField := parseLoop_field room ⟨10, padded n⟩ (hDigits rfl) []
    rw [FixField.text, append_nil] at hField
    rw [hField]
    cases room <;> rfl
  · have hNone {byte : UInt8} (h : isDigit byte = false) (hZero : byte ≠ 0) : byte ∉ padded n ++ [0] := by
      rw [mem_append, not_or, mem_singleton]
      exact ⟨hDigits h, hZero⟩
    have hField := parseLoop_last room ⟨10, _⟩ (hNone rfl (by decide)) (hNone rfl (by decide))
    rw [hField]

theorem get_slot (h : Legal slots) {before after : List Slot} (hSlots : slots = before ++ slot :: after)
    (begun length val : List UInt8) (more : List FixField) :
    get (⟨8, begun⟩ :: ⟨9, length⟩ :: (before.map printed ++ ⟨slot.tag, val⟩ :: more)) slot.tag = val := by
  have hTags := h.tags
  rw [hSlots, map_append, ← cons_append, ← cons_append, nodup_append'] at hTags
  have hOther (tag : UInt32) (hMem : tag ∈ 8 :: 9 :: before.map Slot.tag) : tag ≠ slot.tag := by
    rintro rfl
    exact hTags.2.2 hMem mem_cons_self
  refine get_append (⟨8, _⟩ :: ⟨9, _⟩ :: before.map _) ⟨_, val⟩ (fun f hf => hOther _ ?_) more
  rcases mem_cons.mp hf with rfl | hf
  · exact mem_cons_self
  rcases mem_cons.mp hf with rfl | hf
  · exact mem_cons_of_mem _ mem_cons_self
  · obtain ⟨_, hOther, rfl⟩ := mem_map.mp hf
    exact mem_cons_of_mem _ (mem_cons_of_mem _ (mem_map_of_mem hOther))

theorem parse_printed (h : Legal slots) (hChars : ∀ slot ∈ slots, slot.arg ≠ .chr soh) (n : Nat)
    (rest : List UInt8) : ∃ more, parse (header n ++ (printedBody slots ++ rest)) =
      ((parseLoop (62 - slots.length) rest).1,
        ⟨8, ascii "FIX.4.4"⟩ :: ⟨9, Decimal.text n⟩ :: (slots.map printed ++ more)) := by
  have hFew := h.few
  have hSoh : ∀ field ∈ slots.map printed, soh ∉ field.val := by
    intro field hField
    obtain ⟨slot, hSlot, rfl⟩ := mem_map.mp hField
    refine soh_notMem_print h hSlot fun c hArg hSame => hChars slot hSlot ?_
    rw [hArg, hSame]
  have hParse := parse_header hSoh (by rw [length_map]; omega) n rest
  rw [length_map] at hParse
  exact ⟨_, hParse⟩

theorem get_printed (h : Legal slots) (hSlot : slot ∈ slots) (begun length : List UInt8) (more : List FixField) :
    get (⟨8, begun⟩ :: ⟨9, length⟩ :: (slots.map printed ++ more)) slot.tag = slot.arg.print := by
  obtain ⟨_, after, hSlots⟩ := append_of_mem hSlot
  have hGet := get_slot h hSlots begun length slot.arg.print (after.map printed ++ more)
  rw [hSlots, map_append, append_assoc]
  exact hGet

/-! ## Sound messages -/

theorem exists_printedBody_eq (h : slots ≠ []) : ∃ front, printedBody slots = front ++ [soh] := by
  obtain ⟨_, _, rfl⟩ := (eq_nil_or_concat _).resolve_left h
  rw [printedBody, concat_eq_append, map_append, flatMap_append, map_singleton,
    flatMap_singleton, FixField.text, ← cons_append, ← append_assoc, ← append_assoc]
  exact ⟨_, rfl⟩

theorem length_text_le_passedBody (h : slot ∈ slots) : slot.arg.text.length ≤ (passedBody slots).length := by
  obtain ⟨_, _, rfl⟩ := append_of_mem h
  rw [passedBody, map_append, flatMap_append, map_cons, flatMap_cons, length_append,
    length_append, FixField.text, length_append, length_cons, length_append]
  change slot.arg.text.length ≤ _ + (_ + (slot.arg.text.length + _ + 1) + _)
  omega

theorem printedBody_eq (h : ∀ slot ∈ slots, slot.arg.print = slot.arg.text) : printedBody slots = passedBody slots := by
  rw [printedBody]
  congr 1
  refine map_congr_left fun slot hSlot => ?_
  rw [printed, h slot hSlot]
  rfl

theorem print_eq_text (hCapacity : capacity ≤ 2 ^ 29) (h : Fits capacity slots) (hSlot : slot ∈ slots) :
    slot.arg.print = slot.arg.text := by
  have hClean := h.clean slot hSlot
  have hLength := (length_text_le_passedBody hSlot).trans_lt h.body
  cases hArg : slot.arg with
  | str view =>
    rw [hArg] at hClean hLength
    have hShort : view.length < 2 ^ 31 := hLength.trans_le (hCapacity.trans (by decide))
    rw [Arg.print, Arg.text, printView, toInt_natCast hShort, if_neg (by omega), Int.toNat_natCast, take_length,
      Text.cstr_of_notMem hClean]
  | lit | chr | unsigned | signed => rfl

theorem take_snprintfStored (h : text.length < capacity) : (snprintfStored capacity text).take text.length = text := by
  rw [snprintfStored, if_neg (by omega), take_of_length_le (by omega : text.length ≤ capacity - 1), take_left]

theorem sound_of_fits (hLegal : Legal slots) (hCapacity : capacity ≤ 2 ^ 29) (hFits : Fits capacity slots)
    (hRoom : HasRoom maxLen slots) : Sound slots maxLen (assemble capacity (printedBody slots) maxLen buffers) := by
  have hPrint (slot : Slot) (hSlot : slot ∈ slots) : slot.arg.print = slot.arg.text := print_eq_text hCapacity hFits hSlot
  have hBody := hFits.body
  rw [HasRoom] at hRoom
  rw [← printedBody_eq hPrint] at hBody hRoom
  have hText := payload_lt (n := (printedBody slots).length) (by omega)
  have hStored : (printedBody slots).length ≤ (snprintfStored capacity (printedBody slots)).length := by
    rw [length_snprintfStored (by omega)]
    omega
  obtain ⟨last, hLast, hMessage⟩ := message_assemble hText hRoom _ hStored
  rw [take_snprintfStored hBody] at hMessage
  generalize hSum : (byteSum (header (printedBody slots).length ++ printedBody slots) % 256).toNat = sum at hMessage
  have hThousand : sum < 1000 := by
    rw [← hSum]
    exact (Nat.mod_lt _ (by decide)).trans (by decide)
  obtain ⟨front, hFront⟩ := exists_printedBody_eq hLegal.nonempty
  have hChars : ∀ slot ∈ slots, slot.arg ≠ .chr soh := by
    intro slot hSlot hArg
    have hClean := hFits.clean slot hSlot
    rw [hArg] at hClean
    exact hClean rfl
  obtain ⟨_, hParse⟩ := parse_printed hLegal hChars (printedBody _).length (ascii _ ++ (padded sum ++ [last]))
  have hFew := hLegal.few
  rw [← append_assoc, ← hMessage] at hParse
  refine ⟨?_, ?_, ?_, ?_, ?_, ?_, fun slot hSlot => ?_⟩
  · rw [read_assemble hText]
    exact hStored
  · exact extent_assemble hText hRoom
  · rw [le_iff_toNat_le, ret_assemble hText]
    exact hRoom
  · refine ⟨printedBody _, _, hMessage.trans (append_assoc ..), ?_, prefix_append ..⟩
    rw [hFront, getLast?_concat]
  · have hEnd : header (printedBody slots).length ++ printedBody slots =
        header (printedBody slots).length ++ front ++ [soh] := by rw [append_assoc, ← hFront]
    rw [hMessage, ← hSum]
    exact verifyChecksum_append hEnd last
  · rw [hParse, show 62 - slots.length = 61 - slots.length + 1 by omega]
    exact parseLoop_trailer hThousand hLast
  · rw [hParse, get_printed hLegal hSlot, hPrint slot hSlot]

/-! ## Messages that are not sound -/

variable {rest : List UInt8}

theorem append_cons_inj {byte : UInt8} {front front' rest' : List UInt8} (h : byte ∉ front) (h' : byte ∉ front')
    (hEq : front ++ byte :: rest = front' ++ byte :: rest') : front = front' ∧ rest = rest' := by
  have hFound := memchr_append h rest
  rw [hEq, memchr_append h'] at hFound
  obtain ⟨hFront, hRest⟩ := append_inj hEq (Option.some.inj hFound).symm
  exact ⟨hFront, (List.cons.inj hRest).2⟩

theorem header_append (n : Nat) (rest : List UInt8) :
    header n ++ rest = ascii "8=FIX.4.4\x01" ++ (ascii "9=" ++ (Decimal.text n ++ soh :: rest)) := by
  rw [header, signed_natCast, append_assoc, append_assoc, append_assoc, singleton_append]

theorem header_inj {m n : Nat} {rest' : List UInt8} (h : header m ++ rest = header n ++ rest') :
    m = n ∧ rest = rest' := by
  rw [header_append, header_append] at h
  have hTail := append_cancel_left (append_cancel_left h)
  obtain ⟨hText, hRest⟩ := append_cons_inj (Decimal.notMem_text rfl) (Decimal.notMem_text rfl) hTail
  exact ⟨Decimal.text_injective hText, hRest⟩

theorem lt_of_framed (hPos : 0 < capacity) (hRead : text.length ≤ (snprintfStored capacity text).length)
    (h : Framed (header text.length ++ (snprintfStored capacity text).take text.length ++ rest)) :
    text.length < capacity := by
  obtain ⟨body, _, hEq, hLast, _⟩ := h
  rw [append_assoc] at hEq
  obtain ⟨hLength, hRest⟩ := header_inj hEq
  have hTake : ((snprintfStored capacity text).take text.length).length = body.length := by
    rw [length_take, min_eq_left hRead, hLength]
  obtain ⟨hBody, _⟩ := append_inj hRest hTake
  by_contra hLong
  have hWhole : (snprintfStored capacity text).take text.length = text.take (capacity - 1) ++ [0] := by
    rw [take_of_length_le, snprintfStored, if_neg (ne_of_gt hPos)]
    exact (length_snprintfStored_le ..).trans (not_lt.mp hLong)
  rw [← hBody, hWhole, getLast?_concat] at hLast
  cases hLast

theorem chars_of_parse (hLegal : Legal slots) {n : Nat}
    (h : ∀ slot ∈ slots, get (parse (header n ++ (printedBody slots ++ rest))).2 slot.tag = slot.arg.text) :
    ∀ slot ∈ slots, slot.arg ≠ .chr soh := by
  intro slot hSlot hArg
  have hSome : (slots.find? fun slot => decide (slot.arg = .chr soh)).isSome = true :=
    find?_isSome.mpr ⟨slot, hSlot, decide_eq_true hArg⟩
  obtain ⟨first, hFirst⟩ := Option.isSome_iff_exists.mp hSome
  obtain ⟨hEnds, before, after, hSlots, hBefore⟩ := find?_eq_some_iff_append.mp hFirst
  have hFirstArg := of_decide_eq_true hEnds
  have hMem : first ∈ slots := by
    rw [hSlots]
    exact mem_append_right _ mem_cons_self
  have hText : first.printed.text = (⟨first.tag, []⟩ : FixField).text ++ [soh] := by
    rw [printed, hFirstArg, FixField.text, FixField.text, append_assoc]
    rfl
  have hBody : printedBody slots ++ rest = (before.map printed ++ [FixField.mk first.tag []]).flatMap
      FixField.text ++ (soh :: (printedBody after ++ rest)) := by
    rw [hSlots, printedBody, map_append, map_cons, flatMap_append, flatMap_cons, hText]
    simp [printedBody]
  have hSoh : ∀ field ∈ before.map printed ++ [FixField.mk first.tag []], soh ∉ field.val := by
    intro field hField
    rcases mem_append.mp hField with hOld | hNew
    · obtain ⟨slot, hSlot, rfl⟩ := mem_map.mp hOld
      refine soh_notMem_print hLegal (by rw [hSlots]; exact mem_append_left _ hSlot) fun c hArg hSame => ?_
      have hNot := hBefore slot hSlot
      rw [hArg, hSame] at hNot
      cases hNot
    · rw [mem_singleton.mp hNew]
      exact not_mem_nil
  have hFew : (before.map printed ++ [FixField.mk first.tag []]).length ≤ 62 := by
    have hLength := hLegal.few
    rw [hSlots, length_append] at hLength
    rw [length_append, length_map, length_singleton]
    omega
  have hGet := h _ hMem
  rw [hBody, parse_header hSoh hFew, append_assoc, singleton_append, get_slot hLegal hSlots, hFirstArg] at hGet
  cases hGet

section

variable (hLegal : Legal slots) (hPos : 0 < capacity) (hCapacity : capacity ≤ 2 ^ 29)
include hLegal hPos hCapacity

theorem fits_of_sound (h : Sound slots maxLen (assemble capacity (printedBody slots) maxLen buffers)) :
    Fits capacity slots ∧ HasRoom maxLen slots := by
  have hRead : (ofInt (snprintfLength (printedBody slots))).toNat ≤
    (snprintfStored capacity (printedBody slots)).length := h.initialised
  have hStored := length_snprintfStored_le capacity (printedBody slots)
  have hShort : (printedBody slots).length < 2 ^ 30 := by
    rw [snprintfLength] at hRead
    split at hRead
    · rw [toNat_ofInt_natCast (by omega)] at hRead
      omega
    · have hHuge : (ofInt (-1)).toNat = 2 ^ 64 - 1 := by decide
      omega
  have hText := payload_lt hShort
  have hInit := h.initialised
  rw [read_assemble hText] at hInit
  have hRet := le_iff_toNat_le.mp h.ret_le
  rw [ret_assemble hText] at hRet
  obtain ⟨_, _, hMessage⟩ := message_assemble hText hRet _ hInit
  have hFramed := h.framed
  rw [hMessage] at hFramed
  have hBody := lt_of_framed hPos hInit hFramed
  rw [take_snprintfStored hBody, append_assoc] at hMessage
  have hFields := h.fields
  rw [hMessage] at hFields
  have hChars := chars_of_parse hLegal hFields
  have hPrint (slot : Slot) (hSlot : slot ∈ slots) : slot.arg.print = slot.arg.text := by
    obtain ⟨_, hParse⟩ := parse_printed hLegal hChars (printedBody _).length _
    rw [← hFields slot hSlot, hParse, get_printed hLegal hSlot]
  refine ⟨⟨fun slot hSlot => ?_, ?_⟩, ?_⟩
  · have hSame := hPrint slot hSlot
    have hChar := hChars slot hSlot
    cases hArg : slot.arg with
    | str view =>
      rw [hArg] at hSame
      change printView view = view at hSame
      rw [← hSame]
      exact zero_notMem_printView view
    | chr c =>
      rintro rfl
      exact hChar hArg
    | lit | unsigned | signed => trivial
  · rw [← printedBody_eq hPrint]
    exact hBody
  · rw [HasRoom, ← printedBody_eq hPrint]
    exact hRet

theorem sound_iff : Sound slots maxLen (assemble capacity (printedBody slots) maxLen buffers) ↔
      Fits capacity slots ∧ HasRoom maxLen slots :=
  ⟨fits_of_sound hLegal hPos hCapacity, fun h => sound_of_fits hLegal hCapacity h.1 h.2⟩

end

/-! ## The three formats -/

section Formats

variable {session : FixSession} (hSender : soh ∉ session.senderCompId) (hTarget : soh ∉ session.targetCompId)

include hSender hTarget

theorem sohFree_opening (msgType : String) (hType : soh ∉ ascii msgType) (more : List Slot)
    (hMore : ∀ slot ∈ more, slot.arg.SohFree) : ∀ slot ∈ session.opening msgType ++ more, slot.arg.SohFree := by
  have hTime : soh ∉ ascii "20260908-00:00:00.000" := by decide
  rw [opening]
  simp only [cons_append, forall_mem_cons]
  exact ⟨hType, hSender, hTarget, trivial, hTime, hMore⟩

theorem legal_report {r : ExecutionReport} (hSymbol : soh ∉ r.symbol) : Legal (session.reportSlots r) where
  nonempty := cons_ne_nil _ _
  tags := by
    change ([8, 9, 35, 49, 56, 34, 52, 11, 37, 17, 150, 39, 55, 54, 38, 44, 14, 151] : List UInt32).Nodup
    decide
  few := by
    change 16 ≤ 60
    decide
  sohFree := by
    refine sohFree_opening hSender hTarget _ (by decide) _ ?_
    simp only [forall_mem_cons]
    exact ⟨trivial, trivial, trivial, trivial, trivial, hSymbol, trivial, trivial, trivial, trivial, trivial, nofun⟩

theorem legal_logon (heartbeatSec : UInt32) : Legal (session.logonSlots heartbeatSec) where
  nonempty := cons_ne_nil _ _
  tags := by
    change ([8, 9, 35, 49, 56, 34, 52, 98, 108] : List UInt32).Nodup
    decide
  few := by
    change 7 ≤ 60
    decide
  sohFree := by
    refine sohFree_opening hSender hTarget _ (by decide) _ ?_
    have hZero : soh ∉ ascii "0" := by decide
    simp only [forall_mem_cons]
    exact ⟨hZero, trivial, nofun⟩

theorem legal_heartbeat {testReqId : List UInt8} (hId : soh ∉ testReqId) :
    Legal (session.heartbeatSlots testReqId) := by
  rw [heartbeatSlots]
  split
  · refine ⟨cons_ne_nil _ _, ?_, ?_, sohFree_opening hSender hTarget _ (by decide) _ ?_⟩
    · change ([8, 9, 35, 49, 56, 34, 52, 112] : List UInt32).Nodup
      decide
    · change 6 ≤ 60
      decide
    · rw [forall_mem_singleton]
      exact hId
  · have hFree := sohFree_opening hSender hTarget "0" (by decide) [] nofun
    refine ⟨cons_ne_nil _ _, ?_, ?_, hFree⟩
    · change ([8, 9, 35, 49, 56, 34, 52] : List UInt32).Nodup
      decide
    · change 5 ≤ 60
      decide

end Formats

theorem hasRoom_of_fits (hCapacity : capacity ≤ 2 ^ 29) (hFits : Fits capacity slots)
    (hChecked : ¬ totalPayload (snprintfLength (printedBody slots)) + 16 > maxLen) : HasRoom maxLen slots := by
  have hPrint := printedBody_eq fun _ hSlot => print_eq_text hCapacity hFits hSlot
  have hBody := hFits.body
  rw [← hPrint] at hBody
  have hText := payload_lt (n := (printedBody slots).length) (by omega)
  have hLe := UInt64.le_iff_toNat_le.mp (UInt64.not_lt.mp hChecked)
  rw [UInt64.toNat_add, toNat_total hText] at hLe
  rw [HasRoom, ← hPrint]
  change (_ + 16) % 2 ^ 64 ≤ _ at hLe
  omega

/-- **FIX messages.** For views without SOH bytes, whatever the other arguments and the buffers: a message that a
formatter returns stays within the buffers and reads back exactly when no view holds a zero byte, no character is a SOH
byte, the body is shorter than its array and, for a logon or a heartbeat, the message fits the buffer. -/
theorem format_sound_iff (session : FixSession) (hSender : soh ∉ session.senderCompId)
    (hTarget : soh ∉ session.targetCompId) (maxLen : UInt64) (buffers : Buffers) :
    (∀ r : ExecutionReport, soh ∉ r.symbol → (session.formatExecutionReport r maxLen buffers).1.ret ≠ 0 →
      (Sound (session.reportSlots r) maxLen (session.formatExecutionReport r maxLen buffers).1 ↔
        Fits 512 (session.reportSlots r))) ∧
    (∀ heartbeatSec : UInt32, (session.formatLogon heartbeatSec maxLen buffers).1.ret ≠ 0 →
      (Sound (session.logonSlots heartbeatSec) maxLen (session.formatLogon heartbeatSec maxLen buffers).1 ↔
        Fits 256 (session.logonSlots heartbeatSec) ∧ HasRoom maxLen (session.logonSlots heartbeatSec))) ∧
    (∀ testReqId : List UInt8, soh ∉ testReqId → (session.formatHeartbeat testReqId maxLen buffers).1.ret ≠ 0 →
      (Sound (session.heartbeatSlots testReqId) maxLen (session.formatHeartbeat testReqId maxLen buffers).1 ↔
        Fits 256 (session.heartbeatSlots testReqId) ∧ HasRoom maxLen (session.heartbeatSlots testReqId))) := by
  refine ⟨fun r hSymbol hRet => ?_, fun heartbeatSec hRet => ?_, fun testReqId hId hRet => ?_⟩
  · revert hRet
    rw [formatExecutionReport]
    dsimp only
    split_ifs with hShort hEmpty hLong
    · exact fun hRet => absurd rfl hRet
    · exact fun hRet => absurd rfl hRet
    · exact fun hRet => absurd rfl hRet
    · intro _
      rw [sound_iff (legal_report hSender hTarget hSymbol) (by decide) (by decide)]
      exact ⟨And.left, fun hFits => ⟨hFits, hasRoom_of_fits (by decide) hFits hLong⟩⟩
  · revert hRet
    rw [formatLogon]
    split
    · exact fun hRet => absurd rfl hRet
    · exact fun _ => sound_iff (legal_logon hSender hTarget _) (by decide) (by decide)
  · revert hRet
    rw [formatHeartbeat]
    split
    · exact fun hRet => absurd rfl hRet
    · exact fun _ => sound_iff (legal_heartbeat hSender hTarget hId) (by decide) (by decide)

def sampleSession : FixSession := ⟨ascii "BUYSIDE", ascii "VENUE", 1⟩

def sampleReport : ExecutionReport :=
  { clordid := 7, orderId := 8, execId := 9, execType := 48, ordStatus := 48, symbol := ascii "ACME", side := 49,
    orderQty := 100, price := 2550, cumQty := 0, leavesQty := 100 }

def zeroBuffers : Buffers := ⟨fun _ => 0, fun _ => 0⟩

theorem sample_sound : Sound (sampleSession.reportSlots sampleReport) 512
      (sampleSession.formatExecutionReport sampleReport 512 zeroBuffers).1 ∧
    Sound (sampleSession.logonSlots 30) 128 (sampleSession.formatLogon 30 128 zeroBuffers).1 ∧
    Sound (sampleSession.heartbeatSlots (ascii "T|1")) 128
      (sampleSession.formatHeartbeat (ascii "T|1") 128 zeroBuffers).1 := by
  obtain ⟨hReport, _⟩ := format_sound_iff sampleSession (by decide) (by decide) 512 zeroBuffers
  obtain ⟨_, hLogon, hHeartbeat⟩ := format_sound_iff sampleSession (by decide) (by decide) 128 zeroBuffers
  refine ⟨(hReport sampleReport (by decide) (by decide +kernel)).mpr ⟨by decide +kernel, by decide +kernel⟩,
    (hLogon 30 (by decide +kernel)).mpr ⟨⟨by decide +kernel, by decide +kernel⟩, ?_⟩,
    (hHeartbeat _ (by decide) (by decide +kernel)).mpr ⟨⟨by decide +kernel, by decide +kernel⟩, ?_⟩⟩
  all_goals
    rw [HasRoom]
    decide +kernel

def longSession (n : Nat) : FixSession := ⟨List.replicate n 65, ascii "VENUE", 1⟩

/-- A long name makes the formatters read behind what they have printed, and a logon write behind its buffer. -/
theorem longSession_overruns : (soh ∉ (longSession 600).senderCompId ∧
      ((longSession 600).formatExecutionReport sampleReport 4096 zeroBuffers).1.ret ≠ 0 ∧
      ((longSession 600).formatExecutionReport sampleReport 4096 zeroBuffers).1.initialised <
        ((longSession 600).formatExecutionReport sampleReport 4096 zeroBuffers).1.read) ∧
    soh ∉ (longSession 100).senderCompId ∧ ((longSession 100).formatLogon 30 128 zeroBuffers).1.ret ≠ 0 ∧
      128 < ((longSession 100).formatLogon 30 128 zeroBuffers).1.extent := by
  decide +kernel

end LuvFlicker.Fix
