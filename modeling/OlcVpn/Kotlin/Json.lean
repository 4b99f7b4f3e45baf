/-
  JSON VALUES as the Kotlin serialization library hands them to the client.

  A primitive keeps its text and whether it was quoted: `JsonObject.string` answers with the text
  of ANY primitive, so a number is read as a string, while a JSON `null` is no string at all.
  An object is a list of fields with distinct names in the order of the text (a linked map);
  looking a name up finds the first field of that name.
-/
import OlcVpn.Kotlin.Collections

namespace OlcVpn.Kotlin

open List

/-- A `JsonElement`: `JsonNull`, a literal (its text, and whether it stood in quotes), an array or
    an object. -/
inductive Json where
  | null
  | literal (isString : Bool) (content : String)
  | array (items : List Json)
  | object (fields : List (String × Json))

mutual

/-- `==` on elements.  Objects are compared with the order of their fields. -/
def Json.decEq : (x y : Json) → Decidable (x = y)
  | .null, .null => isTrue rfl
  | .literal b c, .literal b' c' =>
    if h : b = b' ∧ c = c' then isTrue (by rw [h.1, h.2])
    else isFalse fun e => h (Json.literal.inj e)
  | .array l, .array l' =>
    match Json.decEqItems l l' with
    | isTrue h => isTrue (congrArg Json.array h)
    | isFalse h => isFalse fun e => h (Json.array.inj e)
  | .object o, .object o' =>
    match Json.decEqFields o o' with
    | isTrue h => isTrue (congrArg Json.object h)
    | isFalse h => isFalse fun e => h (Json.object.inj e)
  | .null, .literal _ _ | .null, .array _ | .null, .object _ => isFalse Json.noConfusion
  | .literal _ _, .null | .literal _ _, .array _ | .literal _ _, .object _ =>
      isFalse Json.noConfusion
  | .array _, .null | .array _, .literal _ _ | .array _, .object _ => isFalse Json.noConfusion
  | .object _, .null | .object _, .literal _ _ | .object _, .array _ => isFalse Json.noConfusion

def Json.decEqItems : (l l' : List Json) → Decidable (l = l')
  | [], [] => isTrue rfl
  | x :: l, y :: l' =>
    match Json.decEq x y, Json.decEqItems l l' with
    | isTrue h, isTrue h' => isTrue (by rw [h, h'])
    | isFalse h, _ => isFalse fun e => h (List.cons.inj e).1
    | _, isFalse h => isFalse fun e => h (List.cons.inj e).2
  | [], _ :: _ => isFalse (cons_ne_nil _ _).symm
  | _ :: _, [] => isFalse (cons_ne_nil _ _)

def Json.decEqFields : (o o' : List (String × Json)) → Decidable (o = o')
  | [], [] => isTrue rfl
  | (k, x) :: o, (k', y) :: o' =>
    if hk : k = k' then
      match Json.decEq x y, Json.decEqFields o o' with
      | isTrue h, isTrue h' => isTrue (by rw [hk, h, h'])
      | isFalse h, _ => isFalse fun e => h (Prod.mk.inj (List.cons.inj e).1).2
      | _, isFalse h => isFalse fun e => h (List.cons.inj e).2
    else isFalse fun e => hk (Prod.mk.inj (List.cons.inj e).1).1
  | [], _ :: _ => isFalse (cons_ne_nil _ _).symm
  | _ :: _, [] => isFalse (cons_ne_nil _ _)

end

instance : DecidableEq Json := Json.decEq

/-- A `JsonObject`. -/
abbrev JsonObject := List (String × Json)

/-- `jsonObjectOrNull()`. -/
def jsonObjectOrNull : Json → Option JsonObject
  | .object fields => some fields
  | _ => none

/-- `runCatching { it.jsonArray }.getOrNull()`. -/
def jsonArrayOrNull : Json → Option (List Json)
  | .array items => some items
  | _ => none

/-- A quoted string. -/
def Json.str (s : String) : Json := .literal true s

/-- An unquoted number. -/
def Json.num (n : Int) : Json := .literal false (toString n)

/-- An unquoted truth value. -/
def Json.bool (b : Bool) : Json := .literal false (toString b)

/-- An array of quoted strings. -/
def Json.strs (texts : List String) : Json := .array (texts.map Json.str)

/-- One field, or none: a `put` under an `if`. -/
def fieldIf (c : Bool) (name : String) (value : Json) : JsonObject :=
  if c then [(name, value)] else []

@[simp] theorem lookup_fieldIf_self (c : Bool) (name : String) (value : Json) :
    (fieldIf c name value).lookup name = if c then some value else none := by
  cases c <;> simp [fieldIf]

theorem lookup_fieldIf_ne {c : Bool} {name other : String} {value : Json} (h : other ≠ name) :
    (fieldIf c name value).lookup other = none := by
  have hne : (other == name) = false := by simpa using h
  cases c <;> simp [fieldIf, hne]

/-- `jsonPrimitive.contentOrNull` of a field that may be absent.  A field that is no primitive
    makes the access throw: the outer `none`. -/
def contentOrThrow : Option Json → Option (Option String)
  | none => some none
  | some .null => some none
  | some (.literal _ content) => some (some content)
  | some (.array _) => none
  | some (.object _) => none

attribute [simp] jsonObjectOrNull jsonArrayOrNull contentOrThrow

namespace JsonObject

/-- `JsonObject.string(name)`: the text of a primitive, quoted or not. -/
def string (o : JsonObject) (name : String) : Option String :=
  match o.lookup name with
  | some (.literal _ content) => some content
  | _ => none

/-- A copy that leaves the named fields out. -/
def without (o : JsonObject) (names : List String) : JsonObject :=
  o.filter fun field => !names.contains field.1

variable {o : JsonObject}

variable {names : List String}

theorem lookup_without {name : String} (h : name ∉ names) :
    (without o names).lookup name = o.lookup name := by
  induction o with
  | nil => rfl
  | cons field rest ih =>
    obtain ⟨k, v⟩ := field
    simp only [without, filter_cons] at ih ⊢
    by_cases hk : k ∈ names
    · have hne : (name == k) = false := by
        simp only [beq_eq_false_iff_ne]
        rintro rfl
        exact h hk
      simp [hk, hne, ← ih]
    · simp [hk, ← ih]

theorem lookup_without_self {name : String} (h : name ∈ names) :
    (without o names).lookup name = none := by
  refine lookup_eq_none_iff.mpr fun field hfield => ?_
  simp only [without, mem_filter] at hfield
  have hnot : field.1 ∉ names := by simpa using hfield.2
  refine bne_iff_ne.mpr ?_
  rintro rfl
  exact hnot h

/-- Copying without a set of names that holds `name` does not see a `put` of it. -/
theorem without_put {name : String} {value : Json} (h : name ∈ names) :
    without (put o name value) names = without o names := by
  induction o with
  | nil => simp [put, without, h]
  | cons field rest ih =>
    obtain ⟨k, v⟩ := field
    by_cases hk : k = name
    · subst hk
      simp [put, without, h]
    · simp only [put, hk, if_false]
      simp only [without, filter_cons] at ih ⊢
      rw [ih]

theorem lookup_isSome_of_mem {field : String × Json} (h : field ∈ o) :
    (o.lookup field.1).isSome = true := by
  rw [Option.isSome_iff_ne_none]
  intro hnone
  simpa using lookup_eq_none_iff.mp hnone field h

/-- A copy that drops fields or changes their values: the object names each field once, or the
    field is dropped whatever its value is. -/
theorem lookup_flatMap {f : String × Json → JsonObject} {name : String}
    (hkey : ∀ field, ∀ left ∈ f field, left.1 = field.1)
      (hone : (o.map Prod.fst).Nodup ∨ ∀ value other,
      ((f (name, value)).lookup name).isSome = ((f (name, other)).lookup name).isSome) :
    (o.flatMap f).lookup name = (o.lookup name).bind fun value =>
      (f (name, value)).lookup name := by
  induction o with
  | nil => rfl
  | cons field rest ih =>
    obtain ⟨k, v⟩ := field
    rw [flatMap_cons, lookup_append, lookup_cons,
      ih (hone.imp_left fun hnd => (nodup_cons.mp hnd).2)]
    cases hk : name == k with
    | true =>
      obtain rfl := eq_of_beq hk
      cases hleft : (f (name, v)).lookup name with
      | some value => simp [hleft]
      | none =>
        have hnone : ((rest.lookup name).bind fun value => (f (name, value)).lookup name) =
            none := by
          cases hrest : rest.lookup name with
          | none => rfl
          | some value =>
            rcases hone with hnd | hsame
            · exact absurd (mem_map_of_mem (mem_of_lookup_eq_some hrest)) (nodup_cons.mp hnd).1
            · simpa [hleft] using hsame value v
        simp [hleft, hnone]
    | false =>
      have hnone : (f (k, v)).lookup name = none := lookup_eq_none_iff.mpr fun left hleft => by
        rw [hkey _ left hleft, bne, hk]
        rfl
      rw [hnone]
      rfl

/-- A copy with the value of one field replaced. -/
theorem lookup_map_replaced {name other : String} {value : Json} :
    (o.map fun field => if field.1 = name then (name, value) else field).lookup other =
      if other = name then (o.lookup name).map fun _ => value else o.lookup other := by
  induction o with
  | nil => simp
  | cons field rest ih =>
    obtain ⟨k, v⟩ := field
    rw [map_cons]
    by_cases hk : k = name
    · subst hk
      rw [if_pos rfl, lookup_cons, lookup_cons, lookup_cons, ih]
      by_cases hother : other = k
      · simp [hother]
      · simp [hother, beq_false_of_ne hother]
    · rw [if_neg hk, lookup_cons, lookup_cons, lookup_cons, ih]
      by_cases hother : other = name
      · simp [hother, beq_false_of_ne (Ne.symm hk)]
      · simp [hother]

/-- Leaving out fewer names first changes nothing. -/
theorem without_without {inner outer : List String} (h : inner ⊆ outer) :
    without (without o inner) outer = without o outer := by
  simp only [without, filter_filter]
  refine filter_congr fun field _ => ?_
  by_cases hf : field.1 ∈ inner
  · simp [hf, h hf]
  · simp [hf]

end JsonObject

end OlcVpn.Kotlin
