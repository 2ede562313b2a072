import JitTrace.Proofs.Location
import JitTrace.Record

/-! # Printed log lines

The lines in which an engine reports code objects and thrown away code, made of fields with commas
between them. Reading such a line gives the record that was printed, whatever stands in the fields
that do not matter. Only a comma inside a field in front of the last one that matters would shift
the fields behind it.
-/

namespace JitTrace

/-! ## Fields -/

namespace Text

theorem splitOn_intercalate_append {separator : Char} {front rest : List (List Char)}
    (hfront : ∀ field ∈ front, separator ∉ field) (hrest : rest ≠ []) :
    ([separator].intercalate (front ++ rest)).splitOn separator =
      front ++ ([separator].intercalate rest).splitOn separator := by
  induction front with
  | nil => rfl
  | cons field front ih =>
      have htail : front ++ rest ≠ [] := List.append_ne_nil_of_right_ne_nil front hrest
      rw [List.cons_append, List.intercalate_cons_of_ne_nil htail, List.append_assoc,
        List.singleton_append,
        List.splitOn_append_cons_self_of_not_mem (hfront field List.mem_cons_self),
        ih fun other hmem => hfront other (List.mem_cons_of_mem _ hmem), List.cons_append]

/-- The last of a bounded number of fields may hold separators. -/
theorem cutFields_intercalate {separator : Char} {front : List (List Char)}
    (hfront : ∀ field ∈ front, separator ∉ field) (last : List Char) :
    cutFields separator (front.length + 1) ([separator].intercalate (front ++ [last])) =
      front ++ [last] := by
  induction front with
  | nil => rw [List.nil_append, List.intercalate_singleton]; rfl
  | cons field front ih =>
      have hcut := cutFirst_append ([separator].intercalate (front ++ [last]))
        (hfront field List.mem_cons_self)
      have htail : front ++ [last] ≠ [] :=
        List.append_ne_nil_of_right_ne_nil front (List.cons_ne_nil last [])
      rw [List.cons_append, List.intercalate_cons_of_ne_nil htail, List.append_assoc,
        List.singleton_append, List.length_cons, cutFields, hcut]
      exact congrArg (field :: ·)
        (ih fun other hmem => hfront other (List.mem_cons_of_mem _ hmem))

theorem map_ofList_map_toList (texts : List String) :
    (texts.map String.toList).map String.ofList = texts := by
  simp

theorem fields_intercalate_append {front rest : List String}
    (hfront : ∀ field ∈ front, ',' ∉ field.toList) (hrest : rest ≠ []) :
    fields ',' (",".intercalate (front ++ rest)) = front ++ fields ',' (",".intercalate rest) := by
  have hchars : ∀ field ∈ front.map String.toList, ',' ∉ field := by simpa using hfront
  have htexts : rest.map String.toList ≠ [] := by simpa using hrest
  have hsplit := splitOn_intercalate_append hchars htexts
  rw [fields, fields, String.toList_intercalate, String.toList_intercalate, List.map_append]
  refine (congrArg (List.map String.ofList) hsplit).trans ?_
  rw [List.map_append, map_ofList_map_toList]
  rfl

theorem exists_fields_intercalate_cons {field : String} (hfield : ',' ∉ field.toList)
    (rest : List String) :
    ∃ behind, fields ',' (",".intercalate (field :: rest)) = field :: behind := by
  cases rest with
  | nil =>
      refine ⟨[], ?_⟩
      rw [String.intercalate_singleton, fields, List.splitOn_eq_singleton hfield]
      simp
  | cons other rest =>
      have hfront : ∀ text ∈ [field], ',' ∉ text.toList := by simpa using hfield
      have hfields := fields_intercalate_append hfront (List.cons_ne_nil other rest)
      rw [List.singleton_append, List.singleton_append] at hfields
      exact ⟨_, hfields⟩

theorem fieldsUpTo_intercalate {front : List String}
    (hfront : ∀ field ∈ front, ',' ∉ field.toList) (last : String) :
    fieldsUpTo ',' (front.length + 1) (",".intercalate (front ++ [last])) = front ++ [last] := by
  have hchars : ∀ field ∈ front.map String.toList, ',' ∉ field := by simpa using hfront
  have hcut := cutFields_intercalate hchars last.toList
  rw [List.length_map] at hcut
  rw [fieldsUpTo, String.toList_intercalate, List.map_append]
  refine (congrArg (List.map String.ofList) hcut).trans ?_
  rw [List.map_append, map_ofList_map_toList]
  simp

end Text

/-! ## Lines -/

namespace Creation

/-- The fields that tell the kind of a line about a code object. -/
def tags : Creation → List String
  | .script => ["code-creation", "Script", "11"]
  | .compileStart => ["code-creation", "LazyCompile", "11"]
  | .compileEnd => ["code-creation", "LazyCompile", "0"]

theorem exists_tags_eq (creation : Creation) :
    ∃ first second third, creation.tags = [first, second, third] := by
  cases creation <;> exact ⟨_, _, _, rfl⟩

theorem not_mem_tags (creation : Creation) {field : String} (hfield : field ∈ creation.tags) :
    ',' ∉ field.toList := by
  cases creation <;> revert field <;> decide

/-- The fields of a line about a code object in front of the source. -/
def fieldsBefore (creation : Creation) (time : UInt64) (memory : MemoryArea) : List String :=
  creation.tags ++ [toString time.toNat, memory.start, toString memory.size.toNat]

/-- The line that reports a code object. What stands behind the source is of no interest. -/
def line (creation : Creation) (time : UInt64) (memory : MemoryArea) (source : String)
    (further : List String) : String :=
  ",".intercalate (creation.fieldsBefore time memory ++ source :: further)

end Creation

namespace Record

/-- The fields of a line about thrown away code in front of the reason, with the position between
angle brackets. Five of them are of no interest. -/
def deoptimizationFields (time : UInt64) (address position size inlining offset kind : String) :
    List String :=
  ["code-deopt", toString time.toNat, size, address, inlining, offset, kind,
    "<" ++ position ++ ">"]

/-- The line that reports thrown away code. -/
def deoptimizationLine (time : UInt64)
    (address position reason size inlining offset kind : String) : String :=
  ",".intercalate (deoptimizationFields time address position size inlining offset kind ++ [reason])

/-! ## Reading -/

section

variable (creation : Creation) (time : UInt64) (memory : MemoryArea) (source : String)
  (further : List String)

/-- A line about a code object starts as lines of its kind do, and as lines of no other kind. -/
theorem startsWith_line (other : Creation) :
    Text.startsWith (creation.line time memory source further) other.lineStart =
      decide (creation = other) := by
  cases creation <;> cases other <;>
    simp [Text.startsWith, Creation.line, Creation.fieldsBefore, Creation.tags,
      Creation.lineStart] <;> rfl

theorem startsWith_deoptimizationLine (other : Creation)
    (address position reason size inlining offset kind : String) :
    Text.startsWith
      (deoptimizationLine time address position reason size inlining offset kind)
      other.lineStart = false := by
  cases other <;>
    simp [Text.startsWith, deoptimizationLine, deoptimizationFields, Creation.lineStart] <;> rfl

theorem parse?_line :
    parse? (creation.line time memory source further) =
      ofCreationLine? creation (creation.line time memory source further) := by
  cases creation <;> simp [parse?, startsWith_line]

theorem number?_toString : number? (toString time.toNat) = some time := by
  rw [number?, Text.trim_toString, Text.readUInt64?_toString]

theorem not_mem_fieldsBefore (hstart : ',' ∉ memory.start.toList) {field : String}
    (hfield : field ∈ creation.fieldsBefore time memory) : ',' ∉ field.toList := by
  rcases List.mem_append.mp hfield with htag | hrest
  · exact creation.not_mem_tags htag
  · simp only [List.mem_cons, List.not_mem_nil, or_false] at hrest
    rcases hrest with rfl | rfl | rfl
    · exact Text.not_mem_toString (by decide) _
    · exact hstart
    · exact Text.not_mem_toString (by decide) _

theorem ofCreationLine?_line (hstart : ',' ∉ memory.start.toList)
    (hsource : ',' ∉ source.toList) :
    ofCreationLine? creation (creation.line time memory source further) =
      some (.creation creation time memory source) := by
  obtain ⟨behind, hbehind⟩ := Text.exists_fields_intercalate_cons hsource further
  obtain ⟨first, second, third, htags⟩ := creation.exists_tags_eq
  have hfields : Text.fields ',' (creation.line time memory source further) =
      creation.fieldsBefore time memory ++ source :: behind := by
    rw [Creation.line, Text.fields_intercalate_append
      (fun field => not_mem_fieldsBefore creation time memory hstart)
      (List.cons_ne_nil source further), hbehind]
  rw [ofCreationLine?, hfields, Creation.fieldsBefore, htags]
  simp only [List.cons_append, List.nil_append, number?_toString]
  rfl

end

theorem not_mem_deoptimizationFields {time : UInt64}
    {address position size inlining offset kind : String}
    (hgiven : ∀ field ∈ [address, position, size, inlining, offset, kind], ',' ∉ field.toList)
    {field : String}
    (hfield : field ∈ deoptimizationFields time address position size inlining offset kind) :
    ',' ∉ field.toList := by
  simp only [List.mem_cons, List.not_mem_nil, or_false, forall_eq_or_imp, forall_eq] at hgiven
  obtain ⟨haddress, hposition, hsize, hinlining, hoffset, hkind⟩ := hgiven
  simp only [deoptimizationFields, List.mem_cons, List.not_mem_nil, or_false] at hfield
  rcases hfield with rfl | rfl | rfl | rfl | rfl | rfl | rfl | rfl
  · decide
  · exact Text.not_mem_toString (by decide) _
  · exact hsize
  · exact haddress
  · exact hinlining
  · exact hoffset
  · exact hkind
  · simpa using hposition

theorem parse?_deoptimizationLine (time : UInt64)
    (address position reason size inlining offset kind : String) :
    parse? (deoptimizationLine time address position reason size inlining offset kind) =
      ofDeoptimizationLine?
        (deoptimizationLine time address position reason size inlining offset kind) := by
  have hstart : Text.startsWith
      (deoptimizationLine time address position reason size inlining offset kind)
      deoptimizationStart = true := by
    simp [Text.startsWith, deoptimizationLine, deoptimizationFields, deoptimizationStart]
  simp only [parse?, startsWith_deoptimizationLine, hstart, if_true, Bool.false_eq_true, if_false]

/-- The angle brackets of a position are taken off again, whatever stands between them. -/
theorem stripBrackets_angled (position : String) :
    Location.stripBrackets ("<" ++ position ++ ">") = position := by
  have hangles : "<" = String.singleton '<' ∧ ">" = String.singleton '>' := by decide
  rw [hangles.1, hangles.2, Location.stripBrackets_wrapped (by decide) (by decide)]

theorem ofDeoptimizationLine?_line (time : UInt64)
    {address position size inlining offset kind : String} (reason : String)
    (hgiven : ∀ field ∈ [address, position, size, inlining, offset, kind], ',' ∉ field.toList) :
    ofDeoptimizationLine?
        (deoptimizationLine time address position reason size inlining offset kind) =
      some (.deoptimization time address position reason) := by
  have hfields : Text.fieldsUpTo ',' 9
      (deoptimizationLine time address position reason size inlining offset kind) =
        deoptimizationFields time address position size inlining offset kind ++ [reason] :=
    Text.fieldsUpTo_intercalate (fun field => not_mem_deoptimizationFields hgiven) reason
  rw [ofDeoptimizationLine?, hfields]
  simp only [deoptimizationFields, List.cons_append, List.nil_append, number?_toString,
    stripBrackets_angled]
  rfl

/-- A line that reports a code object or thrown away code is read as the record that it was printed
for: with the kind of its first fields, its time and size as numbers, and its address, source,
position and reason letter by letter. The source, and the fields in front of it or of the reason,
hold no comma; the reason, and what stands behind a source, may hold any. -/
theorem parse?_printed_line :
    (∀ (creation : Creation) (time : UInt64) (memory : MemoryArea) (source : String)
        (further : List String),
      ',' ∉ memory.start.toList → ',' ∉ source.toList →
        parse? (creation.line time memory source further) =
          some (.creation creation time memory source)) ∧
    ∀ (time : UInt64) (address position reason size inlining offset kind : String),
      (∀ field ∈ [address, position, size, inlining, offset, kind], ',' ∉ field.toList) →
        parse? (deoptimizationLine time address position reason size inlining offset kind) =
          some (.deoptimization time address position reason) := by
  refine ⟨fun creation time memory source further hstart hsource => ?_,
    fun time address position reason size inlining offset kind hgiven => ?_⟩
  · rw [parse?_line, ofCreationLine?_line creation time memory source further hstart hsource]
  · rw [parse?_deoptimizationLine, ofDeoptimizationLine?_line time reason hgiven]

/-- The largest numbers, an empty start, more fields with commas, a position with brackets of its
own, and a reason with commas. -/
theorem parse?_printed_line_of_odd_texts :
    let memory : MemoryArea := ⟨"", 18446744073709551615⟩
    let created := Creation.line .compileEnd 18446744073709551615 memory "f [eval]:1:1" ["", "a,b"]
    let dropped := deoptimizationLine 0 "0xA" "<a>:1:1)" "a,,b," "" "-1" "" "soft"
    created =
        "code-creation,LazyCompile,0,18446744073709551615,,18446744073709551615,f [eval]:1:1,,a,b" ∧
      ',' ∉ memory.start.toList ∧ ',' ∉ "f [eval]:1:1".toList ∧
      parse? created =
        some (.creation .compileEnd 18446744073709551615 memory "f [eval]:1:1") ∧
      dropped = "code-deopt,0,,0xA,-1,,soft,<<a>:1:1)>,a,,b," ∧
      (∀ field ∈ ["0xA", "<a>:1:1)", "", "-1", "", "soft"], ',' ∉ field.toList) ∧
      parse? dropped = some (.deoptimization 0 "0xA" "<a>:1:1)" "a,,b,") := by
  intro memory created dropped
  have hstart : ',' ∉ memory.start.toList := by decide
  have hsource : ',' ∉ "f [eval]:1:1".toList := by decide
  have hgiven : ∀ field ∈ ["0xA", "<a>:1:1)", "", "-1", "", "soft"], ',' ∉ field.toList := by
    decide
  have hcreated := parse?_printed_line.1 .compileEnd 18446744073709551615 memory "f [eval]:1:1"
    ["", "a,b"] hstart hsource
  have hdropped := parse?_printed_line.2 0 "0xA" "<a>:1:1)" "a,,b," "" "-1" "" "soft" hgiven
  refine ⟨?_, hstart, hsource, hcreated, ?_, hgiven, hdropped⟩
  · decide +kernel
  · decide +kernel

end Record

end JitTrace
