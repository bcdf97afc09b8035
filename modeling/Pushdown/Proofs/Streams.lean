import Pushdown.Machine.Channel
import Pushdown.Proofs.Words

/-! Lines of byte streams and words of files. A stream is cut behind its line feeds, and the line breaks
are taken off, so that no line has a line feed in it. Nor has a word. A text in which a line feed stands
behind each line is cut into these lines, since no other character has the byte of a line feed. -/
namespace Pushdown.Text

theorem decode_eq_ok {bytes : List UInt8} {s : String} (decoded : decode bytes = .ok s) :
    s.toList.flatMap String.utf8EncodeChar = bytes := by
  unfold decode at decoded
  split at decoded
  · rename_i text found
    cases decoded
    unfold String.fromUTF8? at found
    split at found
    · rename_i valid
      cases found
      have encoded := congrArg (·.data.toList)
        (String.utf8Encode_toList (b := String.fromUTF8 ⟨bytes.toArray⟩ valid))
      rw [List.utf8Encode, List.toList_data_toByteArray] at encoded
      exact encoded
    · cases found
  · cases decoded

/-- Only the last byte of a line can be a line feed. -/
theorem nextLine?_eq_some {bytes line rest : List UInt8} (cut : nextLine? bytes = some (line, rest)) :
    ∃ front last, line = front ++ last ∧ 10 ∉ front ∧ last.length ≤ 1 := by
  unfold nextLine? at cut
  split at cut
  · rename_i feed others _
    cases cut
    refine ⟨_, [feed], rfl, fun member => ?_, Nat.le_refl 1⟩
    simpa using List.mem_takeWhile_imp member
  · rename_i whole
    split at cut
    · cases cut
    · cases cut
      refine ⟨bytes, [], (List.append_nil _).symm, fun member => ?_, Nat.zero_le 1⟩
      simpa using List.dropWhile_eq_nil_iff.mp whole 10 member

theorem mem_of_mem_dropWhile {α : Type} {p : α → Bool} {a : α} {as : List α}
    (member : a ∈ as.dropWhile p) : a ∈ as :=
  (List.dropWhile_sublist p).subset member

theorem mem_of_mem_strip {c : Char} {s : String} (member : c ∈ (strip s).toList) : c ∈ s.toList := by
  simp only [strip, String.toList_ofList, trim, trimRight, trimLeft, List.mem_reverse] at member
  exact mem_of_mem_dropWhile (List.mem_reverse.mp (mem_of_mem_dropWhile member))

/-- If a text has line feeds at its end only, it has none without its line break. -/
theorem lineFeed_not_mem_chomp {s : String}
    (last : ∀ front back, s.toList = front ++ '\n' :: back → back = []) : '\n' ∉ (chomp s).toList := by
  intro member
  let breaks (c : Char) : Bool := c = '\n' || c = '\r'
  have kept : '\n' ∈ s.toList.reverse.dropWhile breaks := by
    simpa only [chomp, String.toList_ofList, List.mem_reverse] using member
  have first := List.head?_dropWhile_not breaks s.toList.reverse
  have whole := List.takeWhile_append_dropWhile (p := breaks) (l := s.toList.reverse)
  cases found : s.toList.reverse.dropWhile breaks with
  | nil =>
    rw [found] at kept
    cases kept
  | cons c later =>
    rw [found] at kept first whole
    rcases List.mem_cons.mp kept with rfl | inLater
    · exact absurd first (by simp [breaks])
    -- In the text, the first character that is kept stands behind this line feed.
    · obtain ⟨between, front, rfl⟩ := List.append_of_mem inLater
      have text := congrArg List.reverse whole.symm
      rw [List.reverse_reverse, ← List.cons_append, ← List.append_assoc, List.reverse_append,
        List.reverse_cons, List.append_assoc, List.singleton_append] at text
      have empty := last _ _ text
      simp at empty

theorem eq_nil_behind_feed {before behind front last : List UInt8}
    (same : before ++ 10 :: behind = front ++ last) (flat : 10 ∉ front) (short : last.length ≤ 1) :
    behind = [] := by
  apply List.eq_nil_of_length_eq_zero
  rcases List.append_eq_append_iff.mp same with ⟨inner, inFront, atFeed⟩ | ⟨inner, _, inLast⟩
  · cases inner with
    | nil =>
      have size := congrArg List.length atFeed
      simp only [List.length_cons, List.nil_append] at size
      omega
    | cons byte inner =>
      cases atFeed
      rw [inFront] at flat
      simp at flat
  · have size := congrArg List.length inLast
    simp only [List.length_append, List.length_cons] at size
    omega

theorem lineFeed_last {bytes : List UInt8} {s : String} (decoded : decode bytes = .ok s)
    (cut : ∃ front last, bytes = front ++ last ∧ 10 ∉ front ∧ last.length ≤ 1) :
    ∀ front back, s.toList = front ++ '\n' :: back → back = [] := by
  intro before behind split
  obtain ⟨front, last, rfl, flat, short⟩ := cut
  have encoded := decode_eq_ok decoded
  rw [split, List.flatMap_append, List.flatMap_cons] at encoded
  have nothing := eq_nil_behind_feed encoded flat short
  refine List.eq_nil_iff_forall_not_mem.mpr fun c member => ?_
  have size := String.length_utf8EncodeChar c
  rw [List.flatMap_eq_nil_iff.mp nothing c member] at size
  exact absurd size.symm (Nat.ne_of_gt c.utf8Size_pos)

theorem lineFeed_not_mem_streamLines {bytes : List UInt8} {line : String}
    (member : .ok line ∈ streamLines bytes) : '\n' ∉ line.toList := by
  fun_induction streamLines bytes with
  | case1 => cases member
  | case2 bytes line' rest cut shorter ih =>
    rcases List.mem_cons.mp member with here | later
    · cases decoded : decode line' with
      | error e =>
        rw [decoded] at here
        cases here
      | ok text =>
        rw [decoded] at here
        cases here
        exact lineFeed_not_mem_chomp (lineFeed_last decoded (nextLine?_eq_some cut))
    · exact ih later

/-- Only blanks are taken off with a line break. -/
theorem chomp_append_breaks (s : String) :
    ∃ breaks, IsBlank breaks ∧ s.toList = (chomp s).toList ++ breaks := by
  let isBreak (c : Char) : Bool := c = '\n' || c = '\r'
  refine ⟨(s.toList.reverse.takeWhile isBreak).reverse, ?_, ?_⟩
  · intro c member
    have found := List.mem_takeWhile_imp (List.mem_reverse.mp member)
    simp only [isBreak, Bool.or_eq_true, decide_eq_true_eq] at found
    rcases found with rfl | rfl <;> decide
  · rw [chomp, String.toList_ofList, ← List.reverse_append, List.takeWhile_append_dropWhile,
      List.reverse_reverse]

theorem strip_chomp (s : String) : strip (chomp s) = strip s := by
  obtain ⟨breaks, blank, whole⟩ := chomp_append_breaks s
  rw [strip, strip, whole, trim_append_blank blank]

theorem strip_append_lineFeed (s : String) : strip (s ++ "\n") = strip s := by
  have feed : IsBlank "\n".toList := by decide
  rw [strip, strip, String.toList_append, trim_append_blank feed]

theorem encode_append (s t : String) : encode (s ++ t) = encode s ++ encode t := by
  simp [encode]

theorem decode_encode (s : String) : decode (encode s) = .ok s := by
  have bytes : (⟨(encode s).toArray⟩ : ByteArray) = s.toUTF8 := by simp [encode]
  have valid : String.fromUTF8? s.toUTF8 = some s := by
    simp only [String.fromUTF8?, String.toUTF8_eq_toByteArray, dif_pos s.isValidUTF8]
    rfl
  rw [decode, bytes, valid]

/-- A character that takes more than one byte has no byte of another character. -/
theorem high_of_mem_utf8EncodeChar {c : Char} (wide : 0x7f < c.val.toNat) :
    ∀ b ∈ String.utf8EncodeChar c, 0x80 ≤ b.toNat := by
  have high {n : Nat} (least : 0x80 ≤ n) (small : n < 0x100) : 0x80 ≤ (UInt8.ofNat n).toNat := by
    rwa [UInt8.toNat_ofNat_of_lt' small]
  unfold String.utf8EncodeChar
  dsimp only
  rw [if_neg (Nat.not_le_of_lt wide)]
  split
  · simp only [List.forall_mem_cons]
    refine ⟨high ?_ ?_, high ?_ ?_, by simp⟩ <;> omega
  · split
    · simp only [List.forall_mem_cons]
      refine ⟨high ?_ ?_, high ?_ ?_, high ?_ ?_, by simp⟩ <;> omega
    · simp only [List.forall_mem_cons]
      refine ⟨high ?_ ?_, high ?_ ?_, high ?_ ?_, high ?_ ?_, by simp⟩ <;> omega

theorem lineFeed_of_mem_utf8EncodeChar {c : Char} (member : 10 ∈ String.utf8EncodeChar c) :
    c = '\n' := by
  have narrow : c.val.toNat ≤ 0x7f := by
    apply Nat.le_of_not_lt
    intro wide
    exact absurd (high_of_mem_utf8EncodeChar wide 10 member) (by decide)
  simp only [String.utf8EncodeChar, narrow, if_true, List.mem_singleton] at member
  have value := congrArg UInt8.toNat member
  rw [UInt8.toNat_ofNat_of_lt' (Nat.lt_of_le_of_lt narrow (by decide))] at value
  apply Char.ext
  apply UInt32.toNat_inj.mp
  exact value.symm

theorem lineFeed_not_mem_encode {s : String} (flat : '\n' ∉ s.toList) : 10 ∉ encode s := by
  rw [← decode_eq_ok (decode_encode s)]
  intro member
  obtain ⟨c, inside, encoded⟩ := List.mem_flatMap.mp member
  exact flat (lineFeed_of_mem_utf8EncodeChar encoded ▸ inside)

theorem nextLine?_append_lineFeed {line : List UInt8} (flat : 10 ∉ line) (rest : List UInt8) :
    nextLine? (line ++ 10 :: rest) = some (line ++ [10], rest) := by
  have before : ∀ b ∈ line, decide (b ≠ 10) = true :=
    fun b member => decide_eq_true fun same => flat (same ▸ member)
  have dropped : (line ++ 10 :: rest).dropWhile (· ≠ 10) = 10 :: rest := by
    rw [List.dropWhile_append_of_pos before]
    simp
  have taken : (line ++ 10 :: rest).takeWhile (· ≠ 10) = line := by
    rw [List.takeWhile_append_of_pos before]
    simp
  rw [nextLine?, dropped, taken]

theorem streamLines_eq_cons {bytes line rest : List UInt8} (cut : nextLine? bytes = some (line, rest)) :
    streamLines bytes = (decode line).map chomp :: streamLines rest := by
  rw [streamLines]
  split
  · rename_i ended
    rw [ended] at cut
    cases cut
  · rename_i found
    rw [found] at cut
    cases cut
    rfl

/-- A text with a line feed behind each line. -/
def unlines (lines : List String) : String := String.join (lines.map (· ++ "\n"))

theorem streamLines_unlines {lines : List String} (flat : ∀ line ∈ lines, '\n' ∉ line.toList) :
    streamLines (encode (unlines lines)) = lines.map fun line => .ok (chomp (line ++ "\n")) := by
  induction lines with
  | nil =>
    rw [streamLines]
    rfl
  | cons line later ih =>
    obtain ⟨here, others⟩ := List.forall_mem_cons.mp flat
    have feed : encode "\n" = [10] := by decide
    have decoded := decode_encode (line ++ "\n")
    rw [encode_append, feed] at decoded
    have cut := nextLine?_append_lineFeed (lineFeed_not_mem_encode here) (encode (unlines later))
    rw [unlines, List.map_cons, String.join_cons, encode_append, encode_append, feed, List.append_assoc,
      List.singleton_append, ← unlines, streamLines_eq_cons cut, decoded, ih others]
    rfl

theorem isWord_of_mem_words {cs word : List Char} (member : word ∈ words cs) : IsWord word := by
  fun_induction words cs with
  | case1 => cases member
  | case2 cs c rest start shorter _ ih =>
    rcases List.mem_cons.mp member with rfl | later
    · have solid := List.head?_dropWhile_not isBlank cs
      rw [start] at solid
      refine ⟨List.cons_ne_nil _ _, solid_cons_iff.mpr ⟨solid, fun d inside => ?_⟩⟩
      simpa using List.mem_takeWhile_imp inside
    · exact ih later

end Pushdown.Text
