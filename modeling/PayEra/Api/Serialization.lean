import PayEra.Api.Pagination
import PayEra.Lib.Json

/-!
# Serialization

`apps/api/src/common`: what the interceptors and `JSON.stringify` make of the result of a handler. First
what JSON does not have becomes text, since the interceptor that is registered last is the innermost; then
the page of a list is described.
-/

namespace PayEra.Api.Serialization

open Decimal (Number)
open Pagination

/-! ### Values -/

/-- What a handler returns. The number is `none` for `NaN`; a date and a decimal have their texts. -/
inductive Value where
  | undefined
  | null
  | bool (b : Bool)
  | num (x : Option Number)
  | str (s : String)
  | bigint (n : ℤ)
  | date (iso : String)
  | decimal (text : String)
  | arr (items : List Value)
  | obj (fields : List (String × Value))

mutual

def serializeForJson : Value → Value
  | .bigint n => .str (toString n)
  | .date iso => .str iso
  | .decimal text => .str text
  | .arr items => .arr (serializeItems items)
  | .obj fields => .obj (serializeFields fields)
  | .undefined => .undefined
  | .null => .null
  | .bool b => .bool b
  | .num x => .num x
  | .str s => .str s

def serializeItems : List Value → List Value
  | [] => []
  | item :: items => serializeForJson item :: serializeItems items

def serializeFields : List (String × Value) → List (String × Value)
  | [] => []
  | (key, nested) :: fields => (key, serializeForJson nested) :: serializeFields fields

end

mutual

/-- `JSON.stringify`, up to the text; `undefined` is left out of an object. -/
def stringify : Value → Except String (Option Json)
  | .undefined => .ok none
  | .null => .ok (some .null)
  | .bool b => .ok (some (.bool b))
  | .num (some (.finite x)) => .ok (some (.num x))
  | .num _ => .ok (some .null)
  | .str s => .ok (some (.str s))
  | .bigint _ => .error "Do not know how to serialize a BigInt"
  | .date iso => .ok (some (.str iso))
  | .decimal text => .ok (some (.str text))
  | .arr items => do
    let items ← stringifyItems items
    return some (.arr items)
  | .obj fields => do
    let fields ← stringifyFields fields
    return some (.obj fields)

def stringifyItems : List Value → Except String (List Json)
  | [] => .ok []
  | item :: items => do
    let item ← stringify item
    let items ← stringifyItems items
    return item.getD .null :: items

def stringifyFields : List (String × Value) → Except String (List (String × Json))
  | [] => .ok []
  | (key, nested) :: fields => do
    let nested ← stringify nested
    let fields ← stringifyFields fields
    return (nested.map fun nested => (key, nested)).toList ++ fields

end

/-- The JSON of a value, if it has one. -/
def Encodes (value : Value) (json : Json) : Prop := stringify (serializeForJson value) = .ok (some json)

/-! ### Pages -/

def ofQueryValue : QueryValue → Value
  | .text s => .str s
  | .texts first second others => .arr ((first :: second :: others).map .str)

def ofGiven : Given → Value
  | .fallback n => .num (some (.finite n))
  | .raw value => ofQueryValue value

def ofMetadata (metadata : Pagination.Metadata) : Value :=
  .obj
    [("total", .num (some (.finite metadata.total))),
      ("page", ofGiven metadata.page),
      ("limit", ofGiven metadata.limit),
      ("totalPages", .num metadata.totalPages),
      ("hasNextPage", .bool metadata.hasNextPage),
      ("hasPreviousPage", .bool metadata.hasPreviousPage)]

/-- What the inner interceptor makes of `{ items, total }`. -/
def serializeResponse (response : PaginatedResponse Value) : PaginatedResponse Value :=
  { response with items := serializeItems response.items }

/-- What the outer interceptor returns. -/
def ofPaginated (response : Paginated Value) : Value :=
  .obj [("data", .arr response.data), ("meta", ofMetadata response.metadata)]

/-! ### What is serialized has a JSON -/

mutual

lemma stringify_serializeForJson (value : Value) :
    ∃ json, stringify (serializeForJson value) = .ok json := by
  match value with
  | .undefined | .null | .bool _ | .str _ | .bigint _ | .date _ | .decimal _ => exact ⟨_, rfl⟩
  | .num none | .num (some (.finite _)) | .num (some (.infinite _)) => exact ⟨_, rfl⟩
  | .arr items =>
    obtain ⟨json, h⟩ := stringifyItems_serializeItems items
    exact ⟨some (.arr json), by rw [serializeForJson, stringify, h]; rfl⟩
  | .obj fields =>
    obtain ⟨json, h⟩ := stringifyFields_serializeFields fields
    exact ⟨some (.obj json), by rw [serializeForJson, stringify, h]; rfl⟩

lemma stringifyItems_serializeItems (items : List Value) :
    ∃ json, stringifyItems (serializeItems items) = .ok json := by
  match items with
  | [] => exact ⟨[], rfl⟩
  | item :: items =>
    obtain ⟨json, h⟩ := stringify_serializeForJson item
    obtain ⟨jsons, hs⟩ := stringifyItems_serializeItems items
    exact ⟨json.getD .null :: jsons, by rw [serializeItems, stringifyItems, h, hs]; rfl⟩

lemma stringifyFields_serializeFields (fields : List (String × Value)) :
    ∃ json, stringifyFields (serializeFields fields) = .ok json := by
  match fields with
  | [] => exact ⟨[], rfl⟩
  | (key, nested) :: fields =>
    obtain ⟨json, h⟩ := stringify_serializeForJson nested
    obtain ⟨jsons, hs⟩ := stringifyFields_serializeFields fields
    exact ⟨_, by rw [serializeFields, stringifyFields, h, hs]; rfl⟩

end

lemma encodes_arr (items : List Value) : ∃ json, Encodes (.arr items) (.arr json) := by
  obtain ⟨json, h⟩ := stringifyItems_serializeItems items
  exact ⟨json, by rw [Encodes, serializeForJson, stringify, h]; rfl⟩

lemma encodes_obj (fields : List (String × Value)) : ∃ json, Encodes (.obj fields) (.obj json) := by
  obtain ⟨json, h⟩ := stringifyFields_serializeFields fields
  exact ⟨json, by rw [Encodes, serializeForJson, stringify, h]; rfl⟩

/-- Texts stay as they are. -/
lemma serializeItems_map_str (l : List String) : serializeItems (l.map .str) = l.map .str := by
  induction l with
  | nil => rfl
  | cons s l ih => rw [List.map_cons, serializeItems, ih, serializeForJson]

/-- The parameters of a query are texts, and stay as they are. -/
lemma serialize_ofGiven (given : Given) : serializeForJson (ofGiven given) = ofGiven given := by
  cases given with
  | fallback n => rfl
  | raw value =>
    cases value with
    | text s => rfl
    | texts first second others =>
      rw [ofGiven, ofQueryValue, serializeForJson, serializeItems_map_str]

/-- There is nothing in the metadata that JSON does not have. -/
lemma serialize_ofMetadata (metadata : Pagination.Metadata) :
    serializeForJson (ofMetadata metadata) = ofMetadata metadata := by
  simp only [ofMetadata, serializeForJson, serializeFields, serialize_ofGiven]

/-- The body of a page has the items and the metadata. -/
lemma stringify_ofPaginated (query : Query) (response : PaginatedResponse Value) : ∃ items metadata,
    Encodes (.arr response.items) (.arr items) ∧
      Encodes (ofMetadata (intercept query response).metadata) (.obj metadata) ∧
      stringify (ofPaginated (intercept query (serializeResponse response))) =
        .ok (some (.obj [("data", .arr items), ("meta", .obj metadata)])) := by
  obtain ⟨items, hitems⟩ := encodes_arr response.items
  obtain ⟨metadata, hmetadata⟩ : ∃ json,
      Encodes (ofMetadata (intercept query response).metadata) (.obj json) := encodes_obj _
  refine ⟨items, metadata, hitems, hmetadata, ?_⟩
  rw [Encodes, serializeForJson] at hitems
  rw [Encodes, serialize_ofMetadata] at hmetadata
  have hsame : (intercept query (serializeResponse response)).metadata =
      (intercept query response).metadata := rfl
  have hdata : (intercept query (serializeResponse response)).data = serializeItems response.items := rfl
  rw [ofPaginated, stringify, stringifyFields, stringifyFields, stringifyFields, hsame, hmetadata, hdata,
    hitems]
  rfl

end PayEra.Api.Serialization
