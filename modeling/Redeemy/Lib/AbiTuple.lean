import Redeemy.Lib.Abi

/-!
# The ABI encoding of tuples

The encoding of a tuple with tuples and byte strings in it. What has a fixed size stands in the head of
the tuple; for the rest the head says how far after the start of the tuple it comes. `decode` reads a
tuple of a given shape from data that may go on after it.
-/

namespace Abi

/-- What is in a tuple. A tuple in it is in the same place if its size is fixed. -/
inductive Shape where
  | nil
  | word (rest : Shape)
  | bytes (rest : Shape)
  | tuple (items rest : Shape)

inductive Tuple where
  | nil
  | word (n : Nat) (rest : Tuple)
  | bytes (data : List UInt8) (rest : Tuple)
  | tuple (items rest : Tuple)
  deriving DecidableEq

namespace Shape

def isDynamic : Shape → Bool
  | nil => false
  | word rest => rest.isDynamic
  | bytes _ => true
  | tuple items rest => items.isDynamic || rest.isDynamic

def headSize : Shape → Nat
  | nil => 0
  | word rest => 32 + rest.headSize
  | bytes rest => 32 + rest.headSize
  | tuple items rest => (if items.isDynamic then 32 else items.headSize) + rest.headSize

/-- What is read of the part of a tuple from `pos` on; offsets count from the start of `data`. -/
def read : Shape → List UInt8 → Nat → Option Tuple
  | nil, _, _ => some .nil
  | word rest, data, pos => do
    let rest ← rest.read data (pos + 32)
    pure (.word (wordAt data pos) rest)
  | bytes rest, data, pos => do
    let bytes ← bytesAt data pos
    let rest ← rest.read data (pos + 32)
    pure (.bytes bytes rest)
  | tuple items rest, data, pos =>
    if items.isDynamic then do
      let offset := wordAt data pos
      guard (offset < 2 ^ 64 ∧ offset + items.headSize ≤ data.length)
      let tuple ← items.read (data.drop offset) 0
      let rest ← rest.read data (pos + 32)
      pure (.tuple tuple rest)
    else do
      let tuple ← items.read data pos
      let rest ← rest.read data (pos + items.headSize)
      pure (.tuple tuple rest)

def decode (shape : Shape) (data : List UInt8) : Option Tuple := do
  guard (shape.headSize ≤ data.length)
  shape.read data 0

end Shape

namespace Tuple

def shape : Tuple → Shape
  | nil => .nil
  | word _ rest => .word rest.shape
  | bytes _ rest => .bytes rest.shape
  | tuple items rest => .tuple items.shape rest.shape

/-- The size of what the heads point to. -/
def tailSize : Tuple → Nat
  | nil => 0
  | word _ rest => rest.tailSize
  | bytes data rest => 32 + paddedLength data.length + rest.tailSize
  | tuple items rest =>
    (if items.shape.isDynamic then items.shape.headSize + items.tailSize else 0) + rest.tailSize

/-- The heads, if what they point to begins `start` bytes after the start of the tuple. -/
def heads : Tuple → Nat → List UInt8
  | nil, _ => []
  | word n rest, start => Abi.word n ++ rest.heads start
  | bytes data rest, start => Abi.word start ++ rest.heads (start + (tail data).length)
  | tuple items rest, start =>
    if items.shape.isDynamic then
      Abi.word start ++ rest.heads (start + (items.shape.headSize + items.tailSize))
    else items.heads start ++ rest.heads start

/-- What the heads point to. -/
def tails : Tuple → List UInt8
  | nil => []
  | word _ rest => rest.tails
  | bytes data rest => tail data ++ rest.tails
  | tuple items rest =>
    if items.shape.isDynamic then items.heads items.shape.headSize ++ (items.tails ++ rest.tails)
    else rest.tails

def encode (t : Tuple) : List UInt8 := t.heads t.shape.headSize ++ t.tails

/-- Numbers fit into words. -/
def Fits : Tuple → Prop
  | nil => True
  | word n rest => n < 2 ^ 256 ∧ rest.Fits
  | bytes _ rest => rest.Fits
  | tuple items rest => items.Fits ∧ rest.Fits

variable {t : Tuple} {start : Nat} {data front extra : List UInt8}

/-! ### Sizes -/

theorem length_heads : (t.heads start).length = t.shape.headSize := by
  induction t generalizing start with
  | nil => rfl
  | word n rest ih =>
    rw [heads, List.length_append, length_word, ih]
    rfl
  | bytes data rest ih =>
    rw [heads, List.length_append, length_word, ih]
    rfl
  | tuple items rest ihitems ih =>
    rw [heads, shape, Shape.headSize]
    split_ifs with hdyn
    · rw [List.length_append, length_word, ih]
    · rw [List.length_append, ihitems, ih]

theorem length_tails : t.tails.length = t.tailSize := by
  induction t with
  | nil => rfl
  | word n rest ih => exact ih
  | bytes data rest ih => rw [tails, tailSize, List.length_append, length_tail, ih]
  | tuple items rest ihitems ih =>
    rw [tails, tailSize]
    split_ifs with hdyn
    · rw [List.length_append, List.length_append, length_heads, ihitems, ih, Nat.add_assoc]
    · rw [ih, Nat.zero_add]

theorem length_encode : t.encode.length = t.shape.headSize + t.tailSize := by
  rw [encode, List.length_append, length_heads, length_tails]

theorem tails_eq_nil (hstatic : t.shape.isDynamic = false) : t.tails = [] := by
  induction t with
  | nil => rfl
  | word n rest ih => exact ih hstatic
  | bytes data rest ih => cases hstatic
  | tuple items rest ihitems ih =>
    obtain ⟨hitems, hrest⟩ := Bool.or_eq_false_iff.mp hstatic
    rw [tails, if_neg (by rw [hitems]; exact Bool.false_ne_true), ih hrest]

/-! ### Reading -/

/-- In `data` the heads of `t` come right after `front`, and what they point to begins at `start`. -/
def Laid (t : Tuple) (data front : List UInt8) (start : Nat) : Prop :=
  ∃ mid back, data = front ++ (t.heads start ++ (mid ++ (t.tails ++ back))) ∧
    start = front.length + (t.shape.headSize + mid.length)

theorem laid_encode : t.Laid (t.encode ++ extra) [] t.shape.headSize := by
  refine ⟨[], extra, ?_, ?_⟩
  · rw [encode, List.append_assoc]
    rfl
  · simp only [List.length_nil, Nat.zero_add, Nat.add_zero]

theorem Laid.word {n : Nat} {rest : Tuple} (h : (word n rest).Laid data front start) :
    (∃ after, data = front ++ (Abi.word n ++ after)) ∧
      rest.Laid data (front ++ Abi.word n) start := by
  obtain ⟨mid, back, hdata, hstart⟩ := h
  rw [shape, Shape.headSize] at hstart
  rw [heads, tails, List.append_assoc] at hdata
  refine ⟨⟨_, hdata⟩, mid, back, ?_, ?_⟩
  · rw [hdata, List.append_assoc]
  · rw [List.length_append, length_word]
    omega

theorem Laid.bytes {b : List UInt8} {rest : Tuple} (h : (bytes b rest).Laid data front start) :
    (∃ after, data = front ++ (Abi.word start ++ after)) ∧
    (∃ before after, data = before ++ (tail b ++ after) ∧ before.length = start) ∧
      rest.Laid data (front ++ Abi.word start) (start + (tail b).length) := by
  obtain ⟨mid, back, hdata, hstart⟩ := h
  rw [shape, Shape.headSize] at hstart
  rw [heads, tails, List.append_assoc] at hdata
  refine ⟨⟨_, hdata⟩, ⟨front ++ (Abi.word start ++ (rest.heads (start + (tail b).length) ++ mid)),
    rest.tails ++ back, ?_, ?_⟩, mid ++ tail b, back, ?_, ?_⟩
  · rw [hdata]
    simp only [List.append_assoc]
  · simp only [List.length_append, length_word, length_heads]
    omega
  · rw [hdata]
    simp only [List.append_assoc]
  · simp only [List.length_append, length_word]
    omega

theorem Laid.tuple_dynamic {items rest : Tuple} (hdyn : items.shape.isDynamic = true)
    (h : (tuple items rest).Laid data front start) :
    (∃ after, data = front ++ (Abi.word start ++ after)) ∧
    start + items.shape.headSize ≤ data.length ∧
    items.Laid (data.drop start) [] items.shape.headSize ∧
      rest.Laid data (front ++ Abi.word start) (start + (items.shape.headSize + items.tailSize)) := by
  obtain ⟨mid, back, hdata, hstart⟩ := h
  rw [shape, Shape.headSize, if_pos hdyn] at hstart
  rw [heads, tails, if_pos hdyn, if_pos hdyn, List.append_assoc] at hdata
  -- what comes before the tuple, and the tuple with what comes after it
  obtain ⟨before, hbefore⟩ : ∃ before, before = front ++ (Abi.word start ++
    (rest.heads (start + (items.shape.headSize + items.tailSize)) ++ mid)) := ⟨_, rfl⟩
  have hsplit : data = before ++ (items.heads items.shape.headSize ++ (items.tails ++
      (rest.tails ++ back))) := by
    rw [hdata, hbefore]
    simp only [List.append_assoc]
  have hlength : before.length = start := by
    rw [hbefore]
    simp only [List.length_append, length_word, length_heads]
    omega
  refine ⟨⟨_, hdata⟩, ?_, ⟨[], rest.tails ++ back, ?_, ?_⟩, mid ++ (items.heads items.shape.headSize
    ++ items.tails), back, ?_, ?_⟩
  · rw [hsplit, List.length_append, hlength, List.length_append, length_heads]
    omega
  · rw [hsplit, List.drop_left' hlength]
    rfl
  · simp only [List.length_nil, Nat.zero_add, Nat.add_zero]
  · rw [hdata]
    simp only [List.append_assoc]
  · simp only [List.length_append, length_word, length_heads, length_tails]
    omega

theorem Laid.tuple_static {items rest : Tuple} (hstatic : items.shape.isDynamic = false)
    (h : (tuple items rest).Laid data front start) :
    items.Laid data front start ∧ rest.Laid data (front ++ items.heads start) start := by
  obtain ⟨mid, back, hdata, hstart⟩ := h
  have hdyn : ¬ items.shape.isDynamic = true := Bool.eq_false_iff.mp hstatic
  rw [shape, Shape.headSize, if_neg hdyn] at hstart
  rw [heads, tails, if_neg hdyn, if_neg hdyn, List.append_assoc] at hdata
  refine ⟨⟨rest.heads start ++ mid, rest.tails ++ back, ?_, ?_⟩, mid, back, ?_, ?_⟩
  · rw [hdata, tails_eq_nil hstatic]
    simp only [List.append_assoc, List.nil_append]
  · rw [List.length_append, length_heads]
    omega
  · rw [hdata, List.append_assoc]
  · rw [List.length_append, length_heads]
    omega

/-- What is laid out is read. -/
theorem Laid.read (h : t.Laid data front start) (hfits : t.Fits)
    (hsize : start + t.tailSize < 2 ^ 64) : t.shape.read data front.length = some t := by
  induction t generalizing start front data with
  | nil => rfl
  | word n rest ih =>
    obtain ⟨⟨after, hdata⟩, hrest⟩ := h.word
    have hword : wordAt data front.length = n := by
      rw [hdata]
      exact wordAt_append rfl hfits.1
    have hread := ih hrest hfits.2 hsize
    rw [List.length_append, length_word] at hread
    rw [shape, Shape.read, hread, hword]
    rfl
  | bytes b rest ih =>
    obtain ⟨⟨after, hdata⟩, ⟨before, after', hsplit, hbefore⟩, hrest⟩ := h.bytes
    rw [tailSize] at hsize
    have hword : wordAt data front.length = start := by
      rw [hdata]
      exact wordAt_append rfl (by omega)
    have hbytes : bytesAt data front.length = some b := by
      rw [hsplit]
      have hle := le_paddedLength (n := b.length)
      exact bytesAt_tail (by rw [← hsplit, hword, hbefore]) (by omega) (by omega)
    have hread := ih hrest hfits (by rw [length_tail]; omega)
    rw [List.length_append, length_word] at hread
    rw [shape, Shape.read, hbytes, hread]
    rfl
  | tuple items rest ihitems ih =>
    rw [shape, Shape.read]
    cases hdyn : items.shape.isDynamic with
    | true =>
      obtain ⟨⟨after, hdata⟩, hfit, hitems, hrest⟩ := h.tuple_dynamic hdyn
      rw [tailSize, if_pos hdyn] at hsize
      have hword : wordAt data front.length = start := by
        rw [hdata]
        exact wordAt_append rfl (by omega)
      have htuple : items.shape.read (data.drop start) 0 = some items :=
        ihitems hitems hfits.1 (by omega)
      have hread := ih hrest hfits.2 (by omega)
      rw [List.length_append, length_word] at hread
      rw [if_pos rfl]
      simp only [hword, htuple, hread]
      rw [guard, if_pos ⟨by omega, hfit⟩]
      rfl
    | false =>
      obtain ⟨hitems, hrest⟩ := h.tuple_static hdyn
      rw [tailSize, hdyn, if_neg Bool.false_ne_true, Nat.zero_add] at hsize
      have hnone : items.tailSize = 0 := by
        rw [← length_tails, tails_eq_nil hdyn, List.length_nil]
      have htuple := ihitems hitems hfits.1 (by omega)
      have hread := ih hrest hfits.2 hsize
      rw [List.length_append, length_heads] at hread
      rw [if_neg Bool.false_ne_true, htuple]
      simp only [hread]
      rfl

/-- A tuple is read back, whatever follows it. -/
theorem decode_encode (hfits : t.Fits) (hsize : t.encode.length < 2 ^ 64) :
    t.shape.decode (t.encode ++ extra) = some t := by
  rw [length_encode] at hsize
  have hread : t.shape.read (t.encode ++ extra) 0 = some t := laid_encode.read hfits hsize
  have hhead : t.shape.headSize ≤ (t.encode ++ extra).length := by
    rw [List.length_append, length_encode]
    omega
  rw [Shape.decode, guard, if_pos hhead]
  exact hread

end Tuple

end Abi
