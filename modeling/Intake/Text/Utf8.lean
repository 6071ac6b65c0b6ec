/-!
# Reading octets as UTF-8

A sequence of octets is read as characters, one octet at a time. What is not UTF-8 does not stop
the reading: each longest piece that starts like a character and does not become one is a *stray*
and stands as `none` among the characters. A reader of text shows a stray as U+FFFD.

* `Symbol` is a character or a stray.
* `symbols` reads a whole sequence; on a valid text it gives the characters of the text
  (`symbols_toUTF8`).
* `lossy` is the text with U+FFFD for each stray.
-/

namespace Intake.Text

/-- A character, or a stray piece of octets that is no character. -/
abbrev Symbol := Option Char

/-- A character of which some octets were read: the bits so far, how many octets are still owed,
and the bounds of the next one. -/
structure Pending where
  bits : Nat
  owed : Nat
  least : Nat
  greatest : Nat

/-- What the first octet of a character says: the character itself, or the pending one, or that no
character starts like this. -/
def startSymbol (b : Nat) : Option Pending × List Symbol :=
  if b < 0x80 then (none, [some (Char.ofNat b)])
  else if 0xc2 ≤ b ∧ b ≤ 0xdf then (some ⟨b - 0xc0, 1, 0x80, 0xbf⟩, [])
  else if b = 0xe0 then (some ⟨0, 2, 0xa0, 0xbf⟩, [])
  else if b = 0xed then (some ⟨0xd, 2, 0x80, 0x9f⟩, [])
  else if 0xe1 ≤ b ∧ b ≤ 0xef then (some ⟨b - 0xe0, 2, 0x80, 0xbf⟩, [])
  else if b = 0xf0 then (some ⟨0, 3, 0x90, 0xbf⟩, [])
  else if 0xf1 ≤ b ∧ b ≤ 0xf3 then (some ⟨b - 0xf0, 3, 0x80, 0xbf⟩, [])
  else if b = 0xf4 then (some ⟨4, 3, 0x80, 0x8f⟩, [])
  else (none, [none])

/-- One octet more. An octet outside the bounds ends the pending piece as a stray and is read as a
first octet. -/
def stepSymbol (p : Option Pending) (b : Nat) : Option Pending × List Symbol :=
  match p with
  | none => startSymbol b
  | some p =>
    if p.least ≤ b ∧ b ≤ p.greatest then
      let bits := p.bits * 64 + (b - 0x80)
      if p.owed ≤ 1 then (none, [some (Char.ofNat bits)])
      else (some ⟨bits, p.owed - 1, 0x80, 0xbf⟩, [])
    else
      let (q, read) := startSymbol b
      (q, none :: read)

/-- The symbols of a sequence of octets, after a pending piece. -/
def symbolsFrom : Option Pending → List UInt8 → List Symbol
  | none, [] => []
  | some _, [] => [none]
  | p, b :: bs =>
    let (q, read) := stepSymbol p b.toNat
    read ++ symbolsFrom q bs

/-- The symbols of a sequence of octets: the characters if it is UTF-8, and otherwise the
characters that are found among the strays. -/
def symbols (bytes : ByteArray) : List Symbol :=
  match String.fromUTF8? bytes with
  | some s => s.toList.map some
  | none => symbolsFrom none bytes.toList

/-- The text of a sequence of octets, with U+FFFD in the place of each stray. -/
def lossy (bytes : ByteArray) : String :=
  String.ofList ((symbols bytes).map fun c => c.getD (Char.ofNat 0xfffd))

/-! ## The octets of a text -/

theorem fromUTF8?_toUTF8 (s : String) : String.fromUTF8? s.toUTF8 = some s := by
  simp only [String.fromUTF8?, String.toUTF8_eq_toByteArray, dif_pos s.isValidUTF8]
  rfl

/-- A text that was written as UTF-8 is read as its characters. -/
@[simp]
theorem symbols_toUTF8 (s : String) : symbols s.toUTF8 = s.toList.map some := by
  rw [symbols, fromUTF8?_toUTF8]

/-- The octets of a text are those of its characters. -/
theorem toList_toUTF8 (s : String) :
    s.toUTF8.data.toList = s.toList.flatMap String.utf8EncodeChar := by
  rw [String.toUTF8_eq_toByteArray, ← String.utf8Encode_toList, List.utf8Encode,
    List.toList_data_toByteArray]

/-- The octets of a character are those of ASCII or from `0x80` on. -/
theorem le_of_mem_utf8EncodeChar {n : Nat} (hn : n ≤ 0x80) {c : Char} (hc : n ≤ c.toNat) {b : UInt8}
    (h : b ∈ String.utf8EncodeChar c) : n ≤ b.toNat := by
  have hval : c.val.toNat = c.toNat := rfl
  simp only [String.utf8EncodeChar] at h
  split at h
  · simp only [List.mem_singleton] at h
    rw [h, UInt8.toNat_ofNat']
    omega
  · split at h
    · simp only [List.mem_cons, List.not_mem_nil, or_false] at h
      rcases h with rfl | rfl <;> rw [UInt8.toNat_ofNat'] <;> omega
    · split at h
      · simp only [List.mem_cons, List.not_mem_nil, or_false] at h
        rcases h with rfl | rfl | rfl <;> rw [UInt8.toNat_ofNat'] <;> omega
      · simp only [List.mem_cons, List.not_mem_nil, or_false] at h
        rcases h with rfl | rfl | rfl | rfl <;> rw [UInt8.toNat_ofNat'] <;> omega

/-- A text without control characters has no octet of one. -/
theorem le_of_mem_toUTF8 {n : Nat} (hn : n ≤ 0x80) {s : String} (hs : ∀ c ∈ s.toList, n ≤ c.toNat)
    {b : UInt8} (h : b ∈ s.toUTF8.data.toList) : n ≤ b.toNat := by
  rw [toList_toUTF8, List.mem_flatMap] at h
  obtain ⟨c, hc, hb⟩ := h
  exact le_of_mem_utf8EncodeChar hn (hs c hc) hb

end Intake.Text
