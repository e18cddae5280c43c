import HostTimeline.Json.Printer
import HostTimeline.Json.Reader
import HostTimeline.Proofs.Except
import Mathlib.Tactic.IntervalCases

/-!
Printed JSON can be read back.  The reader is fed with the bytes of one part of a text after the
other; a quoted string is read as the string that was quoted, whatever characters it has
(`Json.Reader.feed_quotedChars`), and parts with commas between them as the elements of an array or
the members of an object.
-/

namespace HostTimeline.Json

theorem toList_loop (bytes : ByteArray) (index : Nat) (before : List UInt8) :
    ByteArray.toList.loop bytes index before = before.reverse ++ bytes.data.toList.drop index := by
  fun_induction ByteArray.toList.loop bytes index before with
  | case1 index before inside ih =>
      have inside : index < bytes.data.toList.length := inside
      have byte : bytes.get! index = bytes.data.toList[index] :=
        getElem!_pos bytes.data index inside
      rw [ih, List.reverse_cons, List.append_assoc, List.drop_eq_getElem_cons inside, byte]
      rfl
  | case2 index before outside =>
      rw [List.drop_eq_nil_of_le (Nat.not_lt.mp outside), List.append_nil]

theorem toList_toUTF8 (text : String) :
    text.toUTF8.toList = text.toList.flatMap String.utf8EncodeChar := by
  change ByteArray.toList.loop text.toByteArray 0 [] = _
  rw [toList_loop, ← String.utf8Encode_toList, List.utf8Encode, List.toList_data_toByteArray]
  rfl

namespace Quoted

/-- Bytes that stand for themselves in a quoted string. -/
def IsPlain (byte : UInt8) : Prop :=
  32 ≤ byte.toNat ∧ byte.toNat ≠ 34 ∧ byte.toNat ≠ 92

theorem isPlain_of_mem_utf8EncodeChar {char : Char} (visible : 32 ≤ char.toNat)
    (quote : char ≠ '"') (backslash : char ≠ '\\') :
    ∀ byte ∈ String.utf8EncodeChar char, IsPlain byte := by
  have quote : char.val.toNat ≠ 34 := fun same => quote (Char.ext (UInt32.toNat_inj.mp same))
  have backslash : char.val.toNat ≠ 92 := fun same => backslash (Char.ext (UInt32.toNat_inj.mp same))
  change 32 ≤ char.val.toNat at visible
  unfold String.utf8EncodeChar IsPlain
  generalize char.val.toNat = value at visible quote backslash
  simp only
  split_ifs <;>
    simp only [List.forall_mem_cons, List.not_mem_nil, false_imp_iff, forall_const, and_true,
      UInt8.toNat_ofNat'] <;>
    omega

theorem step_plain {byte : UInt8} (plain : IsPlain byte) (content : List UInt8) :
    step { content } byte = .ok (.more { content := byte :: content }) := by
  obtain ⟨visible, quote, backslash⟩ := plain
  have toNat : (Char.ofUInt8 byte).toNat = byte.toNat := rfl
  have notQuote : Char.ofUInt8 byte ≠ '"' := fun same => quote (toNat ▸ congrArg Char.toNat same)
  have notBackslash : Char.ofUInt8 byte ≠ '\\' :=
    fun same => backslash (toNat ▸ congrArg Char.toNat same)
  have notControl : ¬ byte < 0x20 := by
    rw [UInt8.lt_iff_toNat_lt]
    exact Nat.not_lt.mpr visible
  simp only [step, if_neg notQuote, if_neg notBackslash, if_neg notControl]

theorem close_eq {text : String} {content : List UInt8}
    (encoded : content.reverse = text.toList.flatMap String.utf8EncodeChar) :
    close { content } = .ok text := by
  have bytes : (⟨content.reverse.toArray⟩ : ByteArray) = text.toByteArray := by
    rw [encoded, ← String.utf8Encode_toList, List.utf8Encode]
    apply ByteArray.ext
    rw [← Array.toList_inj, List.toList_data_toByteArray]
  have decoded : String.fromUTF8? text.toByteArray = some text := dif_pos text.isValidUTF8
  unfold close
  rw [bytes, decoded]

end Quoted

namespace Reader

/-- The reader after the bytes of more characters. -/
def feed (reader : Reader) (chars : List Char) : Except Fault Reader :=
  (chars.flatMap String.utf8EncodeChar).foldlM step reader

theorem feed_append (reader : Reader) (chars others : List Char) :
    reader.feed (chars ++ others) = reader.feed chars >>= fun next => next.feed others := by
  unfold feed
  rw [List.flatMap_append, List.foldlM_append]

theorem feed_append_of_ok {reader next : Reader} {chars : List Char}
    (read : reader.feed chars = .ok next) (others : List Char) :
    reader.feed (chars ++ others) = next.feed others := by
  rw [feed_append, read]
  rfl

/-- A reader within a quoted string. -/
def inQuotes (content : List UInt8) (stack : List Frame) : Reader :=
  { mode := .quoted { content }, stack }

variable {content : List UInt8} {stack : List Frame}

/-- What a character of a quoted string adds to its content. -/
theorem feed_plain {char : Char} (visible : 32 ≤ char.toNat) (quote : char ≠ '"')
    (backslash : char ≠ '\\') :
    (inQuotes content stack).feed [char] =
      .ok (inQuotes ((String.utf8EncodeChar char).reverse ++ content) stack) := by
  have plain := Quoted.isPlain_of_mem_utf8EncodeChar visible quote backslash
  unfold feed
  rw [List.flatMap_singleton]
  generalize String.utf8EncodeChar char = bytes at plain
  induction bytes generalizing content with
  | nil => rfl
  | cons byte rest ih =>
      obtain ⟨here, later⟩ := List.forall_mem_cons.mp plain
      have stepped : (inQuotes content stack).step byte =
          .ok (inQuotes (byte :: content) stack) := by
        simp only [inQuotes, step, Quoted.step_plain here]
        rfl
      rw [List.foldlM_cons, stepped]
      refine (ih later).trans ?_
      rw [List.reverse_cons, List.append_assoc]
      rfl

/-- Control characters are few; each is escaped in a way that is read back. -/
theorem feed_control {char : Char} (control : char.toNat < 32) :
    (inQuotes content stack).feed (escapeChar char) =
      .ok (inQuotes ((String.utf8EncodeChar char).reverse ++ content) stack) := by
  obtain ⟨value, bound, rfl⟩ : ∃ value < 32, char = Char.ofNat value :=
    ⟨char.toNat, control, (Char.ofNat_toNat char).symm⟩
  clear control
  interval_cases value <;> rfl

theorem feed_escapeChar (char : Char) :
    (inQuotes content stack).feed (escapeChar char) =
      .ok (inQuotes ((String.utf8EncodeChar char).reverse ++ content) stack) := by
  by_cases control : char.toNat < 32
  · exact feed_control control
  by_cases quote : char = '"'
  · subst quote
    rfl
  by_cases backslash : char = '\\'
  · subst backslash
    rfl
  have itself : escapeChar char = [char] := by
    unfold escapeChar
    split <;> first | rfl | exact absurd (by decide) control | exact absurd rfl quote | exact absurd rfl backslash | exact if_neg control
  rw [itself]
  exact feed_plain (Nat.not_lt.mp control) quote backslash

theorem feed_content (chars : List Char) :
    (inQuotes content stack).feed (chars.flatMap escapeChar) =
      .ok (inQuotes ((chars.flatMap String.utf8EncodeChar).reverse ++ content) stack) := by
  induction chars generalizing content with
  | nil => rfl
  | cons char rest ih =>
      rw [List.flatMap_cons, feed_append_of_ok (feed_escapeChar char), ih, List.flatMap_cons,
        List.reverse_append, List.append_assoc]

theorem feed_close {text : String}
    (encoded : content.reverse = text.toList.flatMap String.utf8EncodeChar) :
    (inQuotes content stack).feed ['"'] = deliverText text stack := by
  have closed : Quoted.step { content } 34 = .ok (.closed text) := by
    change (Quoted.close { content }).map Quoted.Step.closed = _
    rw [Quoted.close_eq encoded]
    rfl
  change ((inQuotes content stack).step 34 >>= pure) = _
  rw [bind_pure]
  simp only [inQuotes, step, closed]
  rfl

/-- A string in quotes is read as the string, from wherever a quote starts one. -/
theorem feed_quotedChars {reader : Reader}
    (opened : reader.feed ['"'] = .ok (inQuotes [] stack)) (text : String) :
    reader.feed (quotedChars text) = deliverText text stack := by
  change reader.feed (['"'] ++ (text.toList.flatMap escapeChar ++ ['"'])) = _
  rw [feed_append_of_ok opened, feed_append_of_ok (feed_content _)]
  exact feed_close (by rw [List.append_nil, List.reverse_reverse])

/-- Parts with commas between them, of which each is read from where one is expected. -/
theorem feed_intercalate {ι : Type} {chars : ι → List Char} {before after : List ι → Reader}
    (each : ∀ done item, (before done).feed (chars item) = .ok (after (done ++ [item])))
    (comma : ∀ done, done ≠ [] → (after done).feed [','] = .ok (before done))
    {items : List ι} (nonempty : items ≠ []) (done : List ι) :
    (before done).feed ([','].intercalate (items.map chars)) = .ok (after (done ++ items)) := by
  induction items generalizing done with
  | nil => exact absurd rfl nonempty
  | cons item rest ih =>
      cases rest with
      | nil =>
          rw [List.map_cons, List.map_nil, List.intercalate_singleton]
          exact each done item
      | cons next others =>
          rw [List.map_cons, List.map_cons, List.intercalate_cons_cons, List.append_assoc,
            feed_append_of_ok (each done item), feed_append_of_ok (comma _ (by simp)),
            ← List.map_cons, ih (List.cons_ne_nil _ _), List.append_assoc]
          rfl

end Reader

end HostTimeline.Json
