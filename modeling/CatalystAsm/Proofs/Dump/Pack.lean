import CatalystAsm.Dump.Pack
import Mathlib.Data.List.Forall2
import Mathlib.Tactic.SplitIfs

/-!
# Codecs read back what they write

A head is read back from any bytes that begin with it, up to the lengths that it has room for. On
top of heads, `Codec.ReadsBack` says that a codec reads a value back that it wrote, whatever was
there before and whatever follows. It is shown for each way to make codecs; for a record it follows
from its fields, each of which copies its part of the value into what is read so far
(`Field.Copies`).
-/

namespace CatalystAsm.Dump

/-! ## Numbers -/

/-- Bytes are taken from the front. -/
theorem take?_append (b rest : Bytes) : take? b.length (b ++ rest) = some (b, rest) := by
  have hle : b.length ≤ (b ++ rest).length := by
    rw [List.length_append]
    omega
  rw [take?, if_pos hle, List.take_left, List.drop_left]

/-- A length is read back if it has room in its bytes. -/
theorem sized_bigEndian (width : Nat) {v : Nat} (h : v < Nat.pow 256 width) (make : Nat → Head)
    (rest : Bytes) : sized width make (Bytes.bigEndian width v ++ rest) = some (make v, rest) := by
  have htake := take?_append (Bytes.bigEndian width v) rest
  rw [Bytes.length_bigEndian] at htake
  unfold sized
  rw [htake]
  simp only [Option.map_some, Bytes.ofBigEndian_bigEndian, Nat.mod_eq_of_lt h]

/-! ## Heads -/

/-- A short length is added to the code of its kind. -/
theorem toNat_code (base : Nat) {n : Nat} (h : base + n < 256) :
    (UInt8.ofNat base + UInt8.ofNat n).toNat = base + n := by
  rw [UInt8.toNat_add, UInt8.toNat_ofNat', UInt8.toNat_ofNat']
  omega

section

variable {n : Nat} (rest : Bytes)

/-- The head of a record of less than sixteen fields is one byte. -/
theorem head?_shortRecord (h : n < 16) :
    head? ((0x80 + UInt8.ofNat n) :: rest) = some (.record n, rest) := by
  have hcode : (0x80 + UInt8.ofNat n).toNat = 0x80 + n := toNat_code 0x80 (by omega)
  simp only [head?, UInt8.lt_iff_toNat_lt, hcode]
  rw [if_neg (by simp), if_pos (by simp; omega)]
  simp

/-- The head of a list of less than sixteen items is one byte. -/
theorem head?_shortList (h : n < 16) :
    head? ((0x90 + UInt8.ofNat n) :: rest) = some (.list n, rest) := by
  have hcode : (0x90 + UInt8.ofNat n).toNat = 0x90 + n := toNat_code 0x90 (by omega)
  simp only [head?, UInt8.lt_iff_toNat_lt, hcode]
  rw [if_neg (by simp; omega), if_neg (by simp), if_pos (by simp; omega)]
  simp

/-- The head of a text of less than 32 bytes is one byte. -/
theorem head?_shortText (h : n < 32) :
    head? ((0xa0 + UInt8.ofNat n) :: rest) = some (.text n, rest) := by
  have hcode : (0xa0 + UInt8.ofNat n).toNat = 0xa0 + n := toNat_code 0xa0 (by omega)
  simp only [head?, UInt8.lt_iff_toNat_lt, hcode]
  rw [if_neg (by simp; omega), if_neg (by simp; omega), if_neg (by simp), if_pos (by simp; omega)]
  simp

variable (h : n < UInt32.size)

include h

/-- The head of a text is read back. -/
theorem head?_textHead : head? (textHead n ++ rest) = some (.text n, rest) := by
  unfold textHead
  split_ifs with hshort hbyte hword
  · exact head?_shortText rest hshort
  · exact sized_bigEndian 1 hbyte .text rest
  · exact sized_bigEndian 2 hword .text rest
  · exact sized_bigEndian 4 h .text rest

/-- The head of a blob is read back. -/
theorem head?_blobHead : head? (blobHead n ++ rest) = some (.blob n, rest) := by
  unfold blobHead
  split_ifs with hbyte hword
  · exact sized_bigEndian 1 hbyte .blob rest
  · exact sized_bigEndian 2 hword .blob rest
  · exact sized_bigEndian 4 h .blob rest

/-- The head of a list is read back. -/
theorem head?_listHead : head? (listHead n ++ rest) = some (.list n, rest) := by
  unfold listHead
  split_ifs with hshort hword
  · exact head?_shortList rest hshort
  · exact sized_bigEndian 2 hword .list rest
  · exact sized_bigEndian 4 h .list rest

/-- The head of a record is read back. -/
theorem head?_recordHead : head? (recordHead n ++ rest) = some (.record n, rest) := by
  unfold recordHead
  split_ifs with hshort hword
  · exact head?_shortRecord rest hshort
  · exact sized_bigEndian 2 hword .record rest
  · exact sized_bigEndian 4 h .record rest

end

/-! ## Single values -/

namespace Codec

variable {α σ : Type}

/-- A value is read back over any earlier one, and what follows it is left. -/
def ReadsBack (c : Codec α) (v : α) : Prop :=
  ∀ earlier rest, c.read earlier (c.write v ++ rest) = some (v, rest)

/-- A number whose head is read back, and which is its own bits. -/
theorem readsBack_ofWidth {code : UInt8} {width : Nat} {toNat : α → Nat} {ofBits : UInt64 → α}
    {v : α} (hhead : ∀ rest, head? (coded code width (toNat v) ++ rest)
      = some (.number (UInt64.ofNat (toNat v)), rest))
    (hbits : ofBits (UInt64.ofNat (toNat v)) = v) :
    (ofWidth code width toNat ofBits).ReadsBack v := by
  intro earlier rest
  simp only [ofWidth, hhead, hbits]

theorem readsBack_uint8 (v : UInt8) : uint8.ReadsBack v := by
  refine readsBack_ofWidth (fun rest => ?_) ?_
  · exact sized_bigEndian 1 v.toNat_lt (fun v => .number (UInt64.ofNat v)) rest
  · exact UInt8.toNat.inj (by simp)

theorem readsBack_uint16 (v : UInt16) : uint16.ReadsBack v := by
  refine readsBack_ofWidth (fun rest => ?_) ?_
  · exact sized_bigEndian 2 v.toNat_lt (fun v => .number (UInt64.ofNat v)) rest
  · exact UInt16.toNat.inj (by simp)

theorem readsBack_uint32 (v : UInt32) : uint32.ReadsBack v := by
  refine readsBack_ofWidth (fun rest => ?_) ?_
  · exact sized_bigEndian 4 v.toNat_lt (fun v => .number (UInt64.ofNat v)) rest
  · exact UInt32.toNat.inj (by simp)

theorem readsBack_uint64 (v : UInt64) : uint64.ReadsBack v := by
  refine readsBack_ofWidth (fun rest => ?_) ?_
  · exact sized_bigEndian 8 v.toNat_lt (fun v => .number (UInt64.ofNat v)) rest
  · exact UInt64.ofNat_toNat

/-- A truth value is read back. -/
theorem readsBack_bool (v : Bool) : bool.ReadsBack v := by
  intro earlier rest
  cases v <;> rfl

/-- The bytes of a text are read back from its head on. -/
theorem readBytes_text {b : Bytes} (h : b.length < UInt32.size) (rest : Bytes) :
    readBytes (Dump.text b ++ rest) = some (some b, rest) := by
  unfold readBytes Dump.text
  rw [List.append_assoc, head?_textHead _ h]
  simp only [take?_append, Option.map_some]

/-- A text is read back. -/
theorem readsBack_text {b : Bytes} (h : b.length < UInt32.size) : text.ReadsBack b := by
  intro earlier rest
  simp only [text, readBytes_text h, Option.map_some, Option.getD_some]

/-- A blob is read back, and a missing one stays missing. -/
theorem readsBack_blob {v : Option Bytes} (h : (v.getD []).length < UInt32.size) :
    blob.ReadsBack v := by
  intro earlier rest
  cases v with
  | none => rfl
  | some b =>
    rw [Option.getD_some] at h
    show readBytes (Dump.blob b ++ rest) = _
    unfold readBytes Dump.blob
    rw [List.append_assoc, head?_blobHead _ h]
    simp only [take?_append, Option.map_some]

/-- A byte string of fixed length is read back over one of that length. -/
theorem read_fixedBlob {earlier b : Bytes} (h : b.length < UInt32.size)
    (hlen : earlier.length = b.length) (rest : Bytes) :
    fixedBlob.read earlier (fixedBlob.write b ++ rest) = some (b, rest) := by
  simp only [fixedBlob, Dump.blob]
  rw [List.append_assoc, head?_blobHead _ h]
  simp only [take?_append, Option.map_some, hlen, Nat.lt_irrefl, if_false]
  rw [← hlen, List.drop_length, List.append_nil]

/-! ## Lists -/

/-- Items are read back one after another. -/
theorem readList_flatMap {c : Codec α} {l : List α} (h : ∀ v ∈ l, c.ReadsBack v) (zero : α)
    (earlier : List α) (rest : Bytes) :
    readList c zero l.length earlier (l.flatMap c.write ++ rest) = some (l, rest) := by
  induction l generalizing earlier with
  | nil => rfl
  | cons v l ih =>
    have hrest := ih (fun w hw => h w (List.mem_cons_of_mem v hw)) earlier.tail
    rw [List.length_cons, List.flatMap_cons, List.append_assoc]
    unfold readList
    rw [h v List.mem_cons_self]
    simp only [hrest, Option.map_some]

/-- A list is read back, and a missing one stays missing. -/
theorem readsBack_list {c : Codec α} {v : Option (List α)} (zero : α)
    (hlen : (v.getD []).length < UInt32.size) (h : ∀ x ∈ v.getD [], c.ReadsBack x) :
    (list c zero).ReadsBack v := by
  intro earlier rest
  cases v with
  | none => rfl
  | some l =>
    rw [Option.getD_some] at hlen h
    show (list c zero).read earlier (listHead l.length ++ l.flatMap c.write ++ rest) = _
    rw [List.append_assoc]
    simp only [list]
    rw [head?_listHead _ hlen]
    simp only [readList_flatMap h, Option.map_some]

/-- A list of fixed length is read back over one of that length. -/
theorem read_fixedList {c : Codec α} {earlier l : List α} (zero : α) (h : l.length < UInt32.size)
    (hlen : earlier.length = l.length) (hl : ∀ x ∈ l, c.ReadsBack x) (rest : Bytes) :
    (fixedList c zero).read earlier ((fixedList c zero).write l ++ rest) = some (l, rest) := by
  simp only [fixedList]
  rw [List.append_assoc, head?_listHead _ h]
  simp only [readList_flatMap hl, Option.map_some, hlen, Nat.lt_irrefl, if_false]
  rw [← hlen, List.drop_length, List.append_nil]

/-! ## Records -/

end Codec

variable {α σ : Type}

/-- Reading what a field writes of `s` copies that part of `s` into what is read so far. -/
def Field.Copies (f : Field σ) (s : σ) (copy : σ → σ) : Prop :=
  ∀ earlier rest, f.read earlier (f.write s ++ rest) = some (copy earlier, rest)

/-- A field is copied when its value is read back over the one that was there. -/
theorem copies_field_over {c : Codec α} {get : σ → α} {set : σ → α → σ} {s : σ} {name : String}
    (h : ∀ earlier rest, c.read (get earlier) (c.write (get s) ++ rest) = some (get s, rest)) :
    (field name c get set).Copies s fun earlier => set earlier (get s) := by
  intro earlier rest
  simp only [field, h, Option.map_some]

theorem copies_field {c : Codec α} {get : σ → α} {set : σ → α → σ} {s : σ} {name : String}
    (h : c.ReadsBack (get s)) :
    (field name c get set).Copies s fun earlier => set earlier (get s) :=
  copies_field_over fun earlier => h (get earlier)

/-- A field is found by its name among fields with different names. -/
theorem find?_name {fields : List (Field σ)} (h : (fields.map (·.name)).Nodup) {f : Field σ}
    (hf : f ∈ fields) : (fields.find? fun g => g.name == f.name) = some f := by
  induction fields with
  | nil => cases hf
  | cons g fields ih =>
    obtain ⟨hnew, hrest⟩ := List.nodup_cons.mp h
    dsimp only at hnew
    rcases List.mem_cons.mp hf with rfl | hf
    · exact List.find?_cons_of_pos (beq_self_eq_true _)
    · rw [List.find?_cons_of_neg]
      · exact ih hrest hf
      · intro hname
        rw [eq_of_beq hname] at hnew
        exact hnew (List.mem_map_of_mem (f := (·.name)) hf)

/-- The fields of a record, written one after another, are read one after another. -/
theorem readNamed_flatMap {all fields : List (Field σ)} {copies : List (σ → σ)} {s : σ}
    (hcopies : List.Forall₂ (fun f copy => f.Copies s copy) fields copies)
    (hfind : ∀ f ∈ fields, (all.find? fun g => g.name == f.name) = some f)
    (hshort : ∀ f ∈ fields, f.name.length < UInt32.size) (earlier : σ) (rest : Bytes) :
    readNamed all fields.length earlier
        ((fields.flatMap fun f => text f.name ++ f.write s) ++ rest)
      = some (copies.foldl (fun e copy => copy e) earlier, rest) := by
  induction hcopies generalizing earlier with
  | nil => rfl
  | @cons f copy fields copies hf _ ih =>
    have hrest := ih (fun g hg => hfind g (List.mem_cons_of_mem f hg))
      (fun g hg => hshort g (List.mem_cons_of_mem f hg)) (copy earlier)
    rw [List.length_cons, List.flatMap_cons, List.append_assoc, List.append_assoc]
    unfold readNamed
    rw [Codec.readBytes_text (hshort f List.mem_cons_self)]
    simp only [Option.getD_some, hfind f List.mem_cons_self]
    rw [hf]
    simp only [hrest, List.foldl_cons]

namespace Codec

variable {zero : σ} {fields : List (Field σ)} {copies : List (σ → σ)} {s : σ}

/-- The names of the fields are different and short, and there are not too many of them. -/
def WellNamed (fields : List (Field σ)) : Prop :=
  (fields.map (·.name)).Nodup ∧ (∀ name ∈ fields.map (·.name), name.length < UInt32.size) ∧
    fields.length < UInt32.size

instance (fields : List (Field σ)) : Decidable (WellNamed fields) :=
  inferInstanceAs (Decidable (_ ∧ _ ∧ _))

/-- **A record is read back when its fields are**: each field copies its part, and together they
copy all of the record. -/
theorem readsBack_record (hnames : WellNamed fields)
    (hcopies : List.Forall₂ (fun f copy => f.Copies s copy) fields copies)
    (hall : ∀ earlier, copies.foldl (fun e copy => copy e) earlier = s) :
    (record zero fields).ReadsBack s := by
  obtain ⟨hnodup, hshort, hcount⟩ := hnames
  intro earlier rest
  have hfields := readNamed_flatMap hcopies (fun f => find?_name hnodup)
    (fun f hf => hshort _ (List.mem_map_of_mem hf)) earlier rest
  rw [hall] at hfields
  simp only [record]
  rw [List.append_assoc, head?_recordHead _ hcount]
  exact hfields

/-- A record that is there is read back as such. -/
theorem readsBack_optional (hcount : fields.length < UInt32.size)
    (h : (record zero fields).ReadsBack s) (blank : σ) :
    (optional (record zero fields) blank).ReadsBack (some s) := by
  intro earlier rest
  have hread := h (earlier.getD blank) rest
  -- the head of a record is not that of a missing value
  have hhead : ∃ b, head? ((record zero fields).write s ++ rest)
      = some (.record fields.length, b) := by
    simp only [record]
    rw [List.append_assoc]
    exact ⟨_, head?_recordHead _ hcount⟩
  obtain ⟨b, hhead⟩ := hhead
  show (optional (record zero fields) blank).read earlier ((record zero fields).write s ++ rest) = _
  unfold optional
  dsimp only
  rw [hhead]
  dsimp only
  rw [hread]
  rfl

end Codec

end CatalystAsm.Dump
