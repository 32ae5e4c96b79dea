import GuixP2p.Lib.Lines
import GuixP2p.Narinfo.Boundary

/-!
# GuixP2p.Narinfo.Records

**The URL records of a narinfo.** After the signature line a narinfo has one record for each URL:
its `URL:` line and, if they are known, its own `Compression:` and `FileSize:` lines. The parser
collects the three attributes in three lists and pairs them up by position. A record that omits an
attribute so takes the next record's value: `parseNarinfo_urls_iff` says when nothing is mixed up.
-/

namespace GuixP2p

open GuixP2p.Lib

/-! ### Optional values by position -/

section

variable {α : Type}

/-- After the first value that is missing, the others are the default. -/
def LateDefaults (d : α) : List (Option α) → Prop
  | [] => True
  | some _ :: rest => LateDefaults d rest
  | none :: rest => ∀ v, some v ∈ rest → v = d

/-- Each value is found at its own position in the list without the missing ones. -/
def InPlace (d : α) (l : List (Option α)) : Prop :=
  ∀ (i : Nat) (o : Option α), l[i]? = some o → (l.filterMap id)[i]?.getD d = o.getD d

/-- A value that is there, in the list without the missing ones. -/
theorem getElem?_filterMap_id {l : List (Option α)} {j : Nat} {v : α} (h : l[j]? = some (some v)) :
    ∃ e ≤ j, (l.filterMap id)[e]? = some v := by
  obtain ⟨hj, hv⟩ := List.getElem?_eq_some_iff.mp h
  refine ⟨((l.take j).filterMap id).length, ?_, ?_⟩
  · exact Nat.le_trans (List.length_filterMap_le _ _) (by rw [List.length_take]; omega)
  · have hsplit : l.filterMap id = (l.take j).filterMap id ++ v :: (l.drop (j + 1)).filterMap id := by
      conv_lhs => rw [← List.take_append_drop j l, List.drop_eq_getElem_cons hj, hv, List.filterMap_append]
      rfl
    rw [hsplit, List.getElem?_append_right (Nat.le_refl _), Nat.sub_self]
    rfl

/-- A list that starts with a missing value: the first value after it that is not the default
would be read too early. -/
theorem inPlace_none_cons {d : α} {rest : List (Option α)} :
    InPlace d (none :: rest) ↔ ∀ v, some v ∈ rest → v = d := by
  constructor
  · intro h
    have hlate : ∀ (j : Nat) (v : α), rest[j]? = some (some v) → v = d := by
      intro j
      induction j using Nat.strong_induction_on with
      | _ j ih =>
          intro v hv
          obtain ⟨e, he, hget⟩ := getElem?_filterMap_id hv
          have hlt : e < (none :: rest).length := by
            have := (List.getElem?_eq_some_iff.mp hv).1
            rw [List.length_cons]
            omega
          have hplace := h e _ (List.getElem?_eq_getElem hlt)
          have hfilter : (none :: rest).filterMap id = rest.filterMap id := rfl
          rw [hfilter, hget, Option.getD_some] at hplace
          rw [hplace]
          -- what stands at the place where the value is read
          cases e with
          | zero => rfl
          | succ e =>
              have he' : e < rest.length := Nat.lt_of_succ_lt_succ hlt
              rw [List.getElem_cons_succ]
              cases hrest : rest[e] with
              | none => rfl
              | some w => exact ih e (by omega) w (by rw [List.getElem?_eq_getElem he', hrest])
    intro v hv
    obtain ⟨j, hj, hget⟩ := List.getElem_of_mem hv
    exact hlate j v (by rw [List.getElem?_eq_getElem hj, hget])
  · intro h i o ho
    have hvalues : ∀ v ∈ (none :: rest).filterMap id, v = d := by
      intro v hv
      obtain ⟨o, ho, rfl⟩ := List.mem_filterMap.mp hv
      rcases List.mem_cons.mp ho with hnone | hmem
      · cases hnone
      · exact h v hmem
    have hleft : ((none :: rest).filterMap id)[i]?.getD d = d := by
      cases hget : ((none :: rest).filterMap id)[i]? with
      | none => rfl
      | some v => exact hvalues v (List.mem_of_getElem? hget)
    rw [hleft]
    cases o with
    | none => rfl
    | some v =>
        rcases List.mem_cons.mp (List.mem_of_getElem? ho) with hnone | hmem
        · cases hnone
        · exact (h v hmem).symm

/-- **Nothing is mixed up exactly when the values after a missing one are the default.** -/
theorem inPlace_iff_lateDefaults {d : α} {l : List (Option α)} : InPlace d l ↔ LateDefaults d l := by
  induction l with
  | nil => exact iff_of_true (fun i o ho => by cases ho) trivial
  | cons o rest ih =>
      cases o with
      | none => exact inPlace_none_cons
      | some v =>
          rw [LateDefaults, ← ih]
          constructor
          · intro h i o ho
            exact h (i + 1) o ho
          · intro h i o ho
            cases i with
            | zero =>
                obtain rfl := Option.some.inj ho
                rfl
            | succ i => exact h i o ho

end

/-! ### Records -/

/-- A value that a line can have: one line, with no white space at its ends. -/
structure FieldValue where
  text : Text
  oneLine : '\n' ∉ text
  trimmed : Text.trim text = text

structure UrlRecord where
  url : FieldValue
  compression : Option FieldValue
  fileSize : Option UInt64

namespace UrlRecord

/-- The lines of a record, as keys and values. -/
def fields (r : UrlRecord) : List (Text × Text) :=
  [("URL".toList, r.url.text)] ++
    (r.compression.toList.map fun c => ("Compression".toList, c.text)) ++
    (r.fileSize.toList.map fun n => ("FileSize".toList, Text.ofNat n.toNat))

/-- What a record says about its URL. -/
def narUrl (r : UrlRecord) : NarUrl :=
  ⟨r.url.text, (r.compression.map FieldValue.text).getD "none".toList, r.fileSize.getD 0⟩

end UrlRecord

def fieldLine (field : Text × Text) : Text := field.1 ++ ':' :: ' ' :: field.2

/-- The records as text. -/
def renderRecords (records : List UrlRecord) : Text :=
  joinLines '\n' ((records.flatMap UrlRecord.fields).map fieldLine)

/-- A field that a record can have. -/
structure RecordField (field : Text × Text) : Prop where
  key : field.1 ∈ ["URL".toList, "Compression".toList, "FileSize".toList]
  oneLine : '\n' ∉ field.2
  trimmed : Text.trim field.2 = field.2

theorem trim_ofNat (n : Nat) : Text.trim (Text.ofNat n) = Text.ofNat n := by
  have hdigit : ∀ c ∈ Text.ofNat n, Text.isWhitespace c = false := fun c hc => by
    have hc := Nat.isDigit_of_mem_toDigits (by decide) (by decide) hc
    have hrange : 48 ≤ c.toNat ∧ c.toNat ≤ 57 := by simpa [Char.isDigit_iff_toNat] using hc
    simp only [Text.isWhitespace, Bool.or_eq_false_iff, decide_eq_false_iff_not]
    omega
  have happend := @Text.trim_append (Text.ofNat n) (fun c hc => hdigit c (List.mem_of_head? hc))
    Nat.toDigits_ne_nil (fun c hc => hdigit c (List.mem_of_getLast? hc)) []
  rw [List.append_nil] at happend
  rw [happend]
  exact List.append_nil _

theorem recordField_of_mem {records : List UrlRecord} {field : Text × Text}
    (h : field ∈ records.flatMap UrlRecord.fields) : RecordField field := by
  obtain ⟨r, -, hfield⟩ := List.mem_flatMap.mp h
  rw [UrlRecord.fields, List.mem_append, List.mem_append, List.mem_singleton] at hfield
  rcases hfield with (rfl | hfield) | hfield
  · exact ⟨by simp, r.url.oneLine, r.url.trimmed⟩
  · obtain ⟨c, -, rfl⟩ := List.mem_map.mp hfield
    exact ⟨by simp, c.oneLine, c.trimmed⟩
  · obtain ⟨n, -, rfl⟩ := List.mem_map.mp hfield
    exact ⟨by simp, Text.newline_not_mem_ofNat _, trim_ofNat _⟩

/-! ### Reading the records back -/

/-- What `unsignedFields` does with a line. -/
def unsignedField (line : Text) : Option (Text × Text) :=
  let line := Text.trim line
  if "Signature:".toList.isPrefixOf line then none else keyValue line

theorem unsignedField_fieldLine {field : Text × Text} (h : RecordField field) :
    unsignedField (Text.stripCr (fieldLine field)) = some field := by
  obtain ⟨key, value⟩ := field
  -- what is used of the three keys
  have hkey : ∀ k ∈ ["URL".toList, "Compression".toList, "FileSize".toList], ':' ∉ k ∧ k ≠ [] ∧
      Text.trim k = k ∧ k.head? ≠ some 'S' ∧ k.head?.any Text.isWhitespace = false := by decide +kernel
  obtain ⟨hcolon, hne, htrim, hS, hfirst⟩ := hkey key h.key
  have hlast : (key ++ [':']).getLast? = some ':' := List.getLast?_concat
  have hhead : (key ++ [':']).head? = key.head? := by
    cases key with
    | nil => exact absurd rfl hne
    | cons c key => rfl
  have hline : fieldLine (key, value) = (key ++ [':']) ++ ' ' :: value := by
    rw [fieldLine, List.append_assoc]
    rfl
  have hcr : Text.stripCr (' ' :: value) = ' ' :: value := by
    refine if_neg fun hr => ?_
    cases hvalue : value.getLast? with
    | none =>
        rw [List.getLast?_cons, hvalue] at hr
        cases hr
    | some c =>
        rw [List.getLast?_cons, hvalue, Option.getD_some] at hr
        have hws := Text.last_of_trimmed h.trimmed hvalue
        rw [Option.some.inj hr] at hws
        exact absurd hws (by decide)
  have htrimmed : Text.trim (Text.stripCr (fieldLine (key, value))) =
      key ++ ':' :: Text.trimEnd (' ' :: value) := by
    rw [hline, Text.stripCr_append (by rw [hlast]; decide), hcr, Text.trim_append, List.append_assoc]
    · rfl
    · intro c hc
      rw [hhead] at hc
      exact (Option.any_eq_false _ _).1 hfirst c hc
    · simp
    · intro c hc
      rw [hlast] at hc
      rw [← Option.some.inj hc]
      decide
  have hmark : ¬ "Signature:".toList.isPrefixOf (key ++ ':' :: Text.trimEnd (' ' :: value)) = true := by
    intro hpre
    rw [List.isPrefixOf_iff_prefix] at hpre
    obtain ⟨rest, hrest⟩ := hpre
    refine hS ?_
    have hheads := congrArg List.head? hrest
    cases key with
    | nil => exact absurd rfl hne
    | cons c key => exact hheads.symm
  simp only [unsignedField, htrimmed, if_neg hmark, keyValue, Text.splitOnce_append hcolon, Option.map_some,
    htrim, Text.trimEnd_space_append h.trimmed]

theorem newline_not_mem_fieldLine {field : Text × Text} (h : RecordField field) : '\n' ∉ fieldLine field := by
  have hkey : ∀ k ∈ ["URL".toList, "Compression".toList, "FileSize".toList], '\n' ∉ k := by decide
  rw [fieldLine, List.mem_append, List.mem_cons, List.mem_cons, not_or, not_or, not_or]
  exact ⟨hkey _ h.key, by decide, by decide, h.oneLine⟩

/-- The fields of rendered lines. -/
theorem filterMap_unsignedField {fields : List (Text × Text)} (h : ∀ field ∈ fields, RecordField field) :
    (Text.lines (joinLines '\n' (fields.map fieldLine))).filterMap unsignedField = fields := by
  induction fields with
  | nil => rfl
  | cons field fields ih =>
      rw [List.forall_mem_cons] at h
      rw [List.map_cons, joinLines_cons, Text.lines_cons (newline_not_mem_fieldLine h.1), List.filterMap_cons, unsignedField_fieldLine h.1]
      exact congrArg (field :: ·) (ih h.2)

/-- The signature line is passed over. -/
theorem unsignedField_signature (sig : Text) : unsignedField (Text.stripCr (signatureMark ++ sig)) = none := by
  have hfirst := (Option.any_eq_false Text.isWhitespace signatureMark.head?).1 (by decide +kernel)
  have hlast := (Option.any_eq_false Text.isWhitespace signatureMark.getLast?).1 (by decide +kernel)
  have hpre : "Signature:".toList.isPrefixOf (Text.trim (Text.stripCr (signatureMark ++ sig))) = true := by
    rw [Text.stripCr_append (by decide +kernel), Text.trim_append hfirst (by decide) hlast,
      List.isPrefixOf_iff_prefix]
    exact List.prefix_append _ _
  simp only [unsignedField, hpre, if_true]

theorem unsignedFields_records {sig : Text} (hsig : '\n' ∉ sig) (records : List UrlRecord) :
    unsignedFields (signatureMark ++ (sig ++ '\n' :: renderRecords records)) =
      records.flatMap UrlRecord.fields := by
  have hmark : '\n' ∉ signatureMark ++ sig := by
    rw [List.mem_append, not_or]
    exact ⟨by decide, hsig⟩
  have hunfold : ∀ t, unsignedFields t = (Text.lines t).filterMap unsignedField := fun _ => rfl
  rw [hunfold, ← List.append_assoc, Text.lines_cons hmark, List.filterMap_cons, unsignedField_signature]
  exact filterMap_unsignedField fun field hfield => recordField_of_mem hfield

theorem valuesOf_flatMap (key : String) (records : List UrlRecord) (f : UrlRecord → List (Text × Text)) :
    valuesOf key (records.flatMap f) = records.flatMap fun r => valuesOf key (f r) := by
  rw [valuesOf, List.filter_flatMap, List.map_flatMap]
  rfl

/-- The values of one record. -/
theorem valuesOf_fields (r : UrlRecord) :
    valuesOf "URL" r.fields = [r.url.text] ∧
      valuesOf "Compression" r.fields = (r.compression.map FieldValue.text).toList ∧
      valuesOf "FileSize" r.fields = (r.fileSize.map fun n => Text.ofNat n.toNat).toList := by
  obtain ⟨url, compression, fileSize⟩ := r
  cases compression with
  | none =>
      cases fileSize with
      | none => exact ⟨rfl, rfl, rfl⟩
      | some n => exact ⟨rfl, rfl, rfl⟩
  | some c =>
      cases fileSize with
      | none => exact ⟨rfl, rfl, rfl⟩
      | some n => exact ⟨rfl, rfl, rfl⟩

/-- The lists that are paired up. -/
theorem narUrls_records (records : List UrlRecord) :
    narUrls (records.flatMap UrlRecord.fields) =
      records.zipIdx.map fun (r, i) =>
        ⟨r.url.text, ((records.map fun r => r.compression.map FieldValue.text).filterMap id)[i]?.getD "none".toList,
          ((records.map UrlRecord.fileSize).filterMap id)[i]?.getD 0⟩ := by
  have hurls : valuesOf "URL" (records.flatMap UrlRecord.fields) = records.map fun r => r.url.text := by
    simp only [valuesOf_flatMap, (valuesOf_fields _).1]
    exact List.flatMap_pure_eq_map _ _
  have hcompressions : valuesOf "Compression" (records.flatMap UrlRecord.fields) =
      (records.map fun r => r.compression.map FieldValue.text).filterMap id := by
    simp only [valuesOf_flatMap, (valuesOf_fields _).2.1]
    rw [List.filterMap_map, List.filterMap_eq_flatMap_toList]
    rfl
  have hsizes : (valuesOf "FileSize" (records.flatMap UrlRecord.fields)).map (fun v => (Text.parseU64 v).getD 0) =
      (records.map UrlRecord.fileSize).filterMap id := by
    simp only [valuesOf_flatMap, (valuesOf_fields _).2.2]
    rw [List.filterMap_map, List.filterMap_eq_flatMap_toList, List.map_flatMap]
    refine List.flatMap_congr fun r _ => ?_
    cases hsize : r.fileSize with
    | none => simp [hsize]
    | some n => simp [hsize, Text.parseU64_ofNat]
  unfold narUrls
  simp only [hurls, hcompressions, hsizes, List.zipIdx_map, List.map_map]
  rfl

/-- Every attribute is at its record's position. -/
structure AttributesAligned (records : List UrlRecord) : Prop where
  compressions : LateDefaults "none".toList (records.map fun r => r.compression.map FieldValue.text)
  fileSizes : LateDefaults 0 (records.map UrlRecord.fileSize)

/-- **URL records keep their attributes exactly when the ones after an omitted attribute are the
default.** For every signed part, signature line and list of records. -/
theorem parseNarinfo_urls_iff {signed : Text} (hsigned : ¬ signatureMark <:+: signed) {sig : Text}
    (hsig : '\n' ∉ sig) (records : List UrlRecord) :
    (parseNarinfo (signed ++ signatureMark ++ (sig ++ '\n' :: renderRecords records))).urls =
        records.map UrlRecord.narUrl ↔
      AttributesAligned records := by
  have hurls : (parseNarinfo (signed ++ signatureMark ++ (sig ++ '\n' :: renderRecords records))).urls =
      narUrls (records.flatMap UrlRecord.fields) := by
    rw [parseNarinfo_append hsigned, ← unsignedFields_records hsig]
  have hinPlace : narUrls (records.flatMap UrlRecord.fields) = records.map UrlRecord.narUrl ↔
      InPlace "none".toList (records.map fun r => r.compression.map FieldValue.text) ∧
        InPlace 0 (records.map UrlRecord.fileSize) := by
    rw [narUrls_records, List.ext_getElem?_iff]
    simp only [List.getElem?_map, List.getElem?_zipIdx, Option.map_map, Nat.zero_add]
    constructor
    · intro h
      refine ⟨fun i o ho => ?_, fun i o ho => ?_⟩
      · rw [List.getElem?_map] at ho
        obtain ⟨r, hr, rfl⟩ := Option.map_eq_some_iff.mp ho
        have heq := h i
        rw [hr] at heq
        exact (NarUrl.mk.inj (Option.some.inj heq)).2.1
      · rw [List.getElem?_map] at ho
        obtain ⟨r, hr, rfl⟩ := Option.map_eq_some_iff.mp ho
        have heq := h i
        rw [hr] at heq
        exact (NarUrl.mk.inj (Option.some.inj heq)).2.2
    · intro h i
      cases hr : records[i]? with
      | none => rfl
      | some r =>
          have hcompression := h.1 i (r.compression.map FieldValue.text) (by rw [List.getElem?_map, hr]; rfl)
          have hsize := h.2 i r.fileSize (by rw [List.getElem?_map, hr]; rfl)
          simp only [Option.map_some, Function.comp_apply, hcompression, hsize, UrlRecord.narUrl]
  rw [hurls, hinPlace, inPlace_iff_lateDefaults, inPlace_iff_lateDefaults]
  exact ⟨fun h => ⟨h.1, h.2⟩, fun h => ⟨h.compressions, h.fileSizes⟩⟩

/-! ### Two records -/

def gzipValue : FieldValue := ⟨"gzip".toList, by decide, by decide⟩

def firstUrl : FieldValue := ⟨"a".toList, by decide, by decide⟩

def secondUrl : FieldValue := ⟨"b".toList, by decide, by decide⟩

/-- The second record alone omits its attributes. -/
theorem parseNarinfo_urls_iff_sample :
    (parseNarinfo ("StorePath: a\n".toList ++ signatureMark ++ (" 1;h;s".toList ++ '\n' ::
        renderRecords [⟨firstUrl, some gzipValue, some 7⟩, ⟨secondUrl, none, none⟩]))).urls =
      [⟨"a".toList, "gzip".toList, 7⟩, ⟨"b".toList, "none".toList, 0⟩] :=
  (@parseNarinfo_urls_iff "StorePath: a\n".toList (by decide +kernel) " 1;h;s".toList (by decide)
    [⟨firstUrl, some gzipValue, some 7⟩, ⟨secondUrl, none, none⟩]).mpr
    ⟨fun v hv => absurd hv List.not_mem_nil, fun v hv => absurd hv List.not_mem_nil⟩

/-- The first record omits its compression, and takes the second one's. -/
theorem compression_of_next_record :
    (parseNarinfo ("StorePath: a\n".toList ++ signatureMark ++ (" 1;h;s".toList ++ '\n' ::
        renderRecords [⟨firstUrl, none, some 7⟩, ⟨secondUrl, some gzipValue, some 8⟩]))).urls ≠
      [⟨firstUrl, none, some 7⟩, ⟨secondUrl, some gzipValue, some 8⟩].map UrlRecord.narUrl := by
  decide +kernel

end GuixP2p
