import BoundSql.Proofs.Json.Members
import BoundSql.Proofs.Parameters.History

/-!
# Collections as documents

What a value is read back as, when its document has been written and read again: `Value.Shown` says
it by what the parts of the document that is read stand for. A collection is written as one object.
Read again, whatever changes led to the collection, the object has the names of the collection as
its keys, in their order and none of them twice, each with what its value is read back as
(`Parameters.read?_toJson`).
-/

namespace BoundSql

open Json (Source)
open Json.Source (namedMembers? namedMembers?_memberSources)

/-! ## Values -/

/-- What a value is read back as. Integers keep their number and texts their characters; bytes are
an array of numbers and a list is an array of what its elements are read back as. A binary64 number
is the number that its digits spell, and `null` if it is no finite number. -/
inductive Value.Shown : Value → Source → Prop
  | null : Shown .null .null
  | bool (b : Bool) : Shown (.bool b) (.bool b)
  | int {n : Int64} {numeral : Json.Numeral} (same : numeral.integer? = some n.toInt) :
    Shown (.int n) (.number numeral)
  | uint {n : UInt64} {numeral : Json.Numeral} (same : numeral.natural? = some n.toNat) :
    Shown (.uint n) (.number numeral)
  | float {x : Binary64} {numeral : Json.Numeral} (spelled : numeral.Spelled (Json.floatChars x)) :
    Shown (.float x) (.number numeral)
  | notFinite {x : Binary64} (special : x.isFinite = false) : Shown (.float x) .null
  | text {s : String} {source : Source} (same : source.text? = some s) : Shown (.text s) source
  | bytes {content : List UInt8} {items : List Source}
    (same : List.Forall₂ (fun b item => item.natural? = some b.toNat) content items) :
    Shown (.bytes content) (.array items)
  | date {d : Date} {source : Source} (same : source.text? = some d.text) : Shown (.date d) source
  | time {t : TimeOfDay} {source : Source} (same : source.text? = some t.text) :
    Shown (.time t) source
  | dateTime {t : DateTime} {source : Source} (same : source.text? = some t.text) :
    Shown (.dateTime t) source
  | timestamp {t : DateTime} {source : Source} (same : source.text? = some t.utcText) :
    Shown (.timestamp t) source
  | uuid {u : Uuid} {source : Source} (same : source.text? = some u.text) : Shown (.uuid u) source
  | json (doc : Json) : Shown (.json doc) doc.source
  | list {values : List Value} {items : List Source}
    (same : List.Forall₂ Value.Shown values items) : Shown (.list values) (.array items)

namespace Value

theorem bytes_shown (content : List UInt8) :
    List.Forall₂ (fun b item => item.natural? = some b.toNat) content
      (Json.itemSources (content.map fun b => .int b.toNat)) := by
  induction content with
  | nil => exact .nil
  | cons b content ih => exact .cons (Json.natural?_source b.toNat) ih

mutual

/-- The document of a value is read back as the value. -/
theorem shown (v : Value) : v.Shown v.toJson.source :=
  match v with
  | .null => .null
  | .bool b => .bool b
  | .int n => .int (Json.Numeral.integer?_ofInt n.toInt)
  | .uint n => .uint (Json.Numeral.natural?_ofInt n.toNat)
  | .float x => by
    rw [toJson, Json.source]
    cases finite : x.isFinite with
    | true =>
      obtain ⟨numeral, spelled⟩ := Json.exists_spelled_floatChars finite
      rw [Json.numeral?_eq_some_iff.2 spelled]
      exact .float spelled
    | false =>
      rw [Json.floatChars_of_not_finite finite]
      exact .notFinite finite
  | .text s => .text (Json.text?_source s)
  | .bytes content => .bytes (bytes_shown content)
  | .date d => .date (Json.text?_source d.text)
  | .time t => .time (Json.text?_source t.text)
  | .dateTime t => .dateTime (Json.text?_source t.text)
  | .timestamp t => .timestamp (Json.text?_source t.utcText)
  | .uuid u => .uuid (Json.text?_source u.text)
  | .json doc => .json doc
  | .list values => .list (elements_shown values)

theorem elements_shown (values : List Value) :
    List.Forall₂ Value.Shown values (Json.itemSources (elementsToJson values)) :=
  match values with
  | [] => .nil
  | value :: values => .cons value.shown (elements_shown values)

end

end Value

/-! ## Collections -/

namespace Parameters

/-- The text of a collection is read as one object. Its keys are the names of the collection, in
the order in which they were bound and none of them twice, and each value is read back as itself:
all this as the changes say that led to the collection, done on a plain list of pairs. -/
theorem read?_toJson (start : Pairs Value) (history : List (Edit Value)) :
    ∃ members named,
      Source.read? ((ofList start).editAll history).2.toJson.text.toList = some (.object members) ∧
        namedMembers? members = some named ∧
        named.map Prod.fst = ((ofList start).editAll history).2.names ∧
        (named.map Prod.fst).Nodup ∧
        List.Forall₂ (fun entry member => member.1 = entry.1 ∧ entry.2.Shown member.2)
          (Pairs.editAll (Pairs.ofList start) history).2 named := by
  have view := congrArg Prod.snd (toList_editAll (ofList start) history)
  rw [toList_ofList] at view
  rw [← view]
  generalize ((ofList start).editAll history).2 = p
  refine ⟨_, _, by rw [Json.text, String.toList_ofList]; exact Json.read?_chars _,
    namedMembers?_memberSources _, ?_, ?_, ?_⟩
  · rw [List.map_map, List.map_map]; rfl
  · rw [List.map_map, List.map_map]; exact p.names_nodup
  · rw [List.map_map, List.forall₂_map_right_iff, List.forall₂_same]
    exact fun entry _ => ⟨rfl, entry.2.shown⟩

end Parameters

end BoundSql
