import LabRuntime.Lib.Binary64
import LabRuntime.Lib.Checks
import LabRuntime.Lib.OrderedMap
import LabRuntime.Wire.Lexical
import Mathlib.Data.String.Basic

/-! Parsed messages: the visitor that refuses duplicate keys, and the shape that candidate
limits are checked on. A parsed object holds its members in key order, so its shape is read
off the text's members up to their order. -/

namespace LabRuntime.Wire

open JsonText

/-- Maximum UTF-8 bytes in one admitted JSON string or object key. -/
def STRING_LIMIT : ℕ := 512

inductive Number where
  | unsigned (n : UInt64)
  | negative (n : Int64)
  | float (x : F64)
deriving DecidableEq

/-- What the JSON library hands a visitor for a number. -/
inductive Numeric where
  | unsigned (n : UInt64)
  | signed (n : Int64)
  | float (x : F64)

abbrev Parsed := JsonText.Value Number String

/-- How the JSON library reads the scalars of a text. -/
structure Scalars where
  number : List UInt8 → Except String Numeric
  text : List UInt8 → Except String String

def visitNumber : Numeric → Except String Number
  | .unsigned n => .ok (.unsigned n)
  | .signed n => .ok (if n < 0 then .negative n else .unsigned n.toUInt64)
  | .float x => if x.isFinite then .ok (.float x) else .error "nonfinite_number"

def visitString (value : String) : Except String String :=
  if STRING_LIMIT < value.utf8ByteSize then .error "string_too_large" else .ok value

mutual

def unique (c : Scalars) : Document → Except String Parsed
  | .null => .ok .null
  | .bool b => .ok (.bool b)
  | .number text => do
    let n ← c.number text
    let n ← visitNumber n
    .ok (.number n)
  | .string text => do
    let value ← c.text text
    let value ← visitString value
    .ok (.string value)
  | .array items => do
    let out ← uniqueSeq c items []
    .ok (.array out)
  | .object members => do
    let out ← uniqueMap c members [] OrderedMap.empty
    .ok (.object out.entries)

def uniqueSeq (c : Scalars) : List Document → List Parsed → Except String (List Parsed)
  | [], out => .ok out
  | v :: vs, out => do
    let item ← unique c v
    if VALUE_LIMIT ≤ out.length then .error "json_values" else uniqueSeq c vs (out ++ [item])

def uniqueMap (c : Scalars) : List (List UInt8 × Document) → List String → OrderedMap String Parsed →
    Except String (OrderedMap String Parsed)
  | [], _, out => .ok out
  | (key, v) :: ms, seen, out => do
    let key ← c.text key
    if STRING_LIMIT < key.utf8ByteSize then .error "string_too_large"
    else if key ∈ seen then .error "duplicate_key"
    else if VALUE_LIMIT < (key :: seen).length then .error "json_values"
    else
      let value ← unique c v
      uniqueMap c ms (key :: seen) (out.insert key value)

end

mutual

/-- The JSON library's own reading of a document: no limits, the last of equal keys wins. -/
def parsed (c : Scalars) : Document → Except String Parsed
  | .null => .ok .null
  | .bool b => .ok (.bool b)
  | .number text => do
    let n ← c.number text
    let n ← visitNumber n
    .ok (.number n)
  | .string text => do
    let value ← c.text text
    .ok (.string value)
  | .array items => do
    let out ← parsedSeq c items []
    .ok (.array out)
  | .object members => do
    let out ← parsedMap c members OrderedMap.empty
    .ok (.object out.entries)

def parsedSeq (c : Scalars) : List Document → List Parsed → Except String (List Parsed)
  | [], out => .ok out
  | v :: vs, out => do
    let item ← parsed c v
    parsedSeq c vs (out ++ [item])

def parsedMap (c : Scalars) : List (List UInt8 × Document) → OrderedMap String Parsed →
    Except String (OrderedMap String Parsed)
  | [], out => .ok out
  | (key, v) :: ms, out => do
    let key ← c.text key
    let value ← parsed c v
    parsedMap c ms (out.insert key value)

end

mutual

/-- No object of the document has two keys that read as one string. -/
def UniqueKeys (c : Scalars) : Document → Prop
  | .array items => UniqueKeysItems c items
  | .object members => UniqueKeysMembers c members []
  | _ => True

def UniqueKeysItems (c : Scalars) : List Document → Prop
  | [] => True
  | v :: vs => UniqueKeys c v ∧ UniqueKeysItems c vs

def UniqueKeysMembers (c : Scalars) : List (List UInt8 × Document) → List (Except String String) → Prop
  | [], _ => True
  | (key, v) :: ms, seen =>
    c.text key ∉ seen ∧ UniqueKeys c v ∧ UniqueKeysMembers c ms (c.text key :: seen)

end

mutual

def visit : Parsed → ℕ → ℕ × ℕ → ℕ × ℕ
  | .object members, depth, (count, maximum) =>
    visitMembers members (depth + 1) (count + members.length, max maximum depth)
  | .array items, depth, (count, maximum) =>
    visitItems items (depth + 1) (count + items.length, max maximum depth)
  | _, _, found => found

def visitItems : List Parsed → ℕ → ℕ × ℕ → ℕ × ℕ
  | [], _, found => found
  | v :: vs, depth, found => visitItems vs depth (visit v depth found)

def visitMembers : List (String × Parsed) → ℕ → ℕ × ℕ → ℕ × ℕ
  | [], _, found => found
  | (_, v) :: ms, depth, found => visitMembers ms depth (visit v depth found)

end

/-- The values of a parsed value and the number of container edges below its root. -/
def jsonShape (value : Parsed) : ℕ × ℕ := visit value 0 (1, 0)

section Shape

/-- The deepest container, for parts that start at a depth; without containers nothing changes. -/
def deepest (depth nesting maximum : ℕ) : ℕ := if nesting = 0 then maximum else max maximum (depth + nesting - 1)

theorem deepest_deepest (depth a b maximum : ℕ) :
    deepest depth b (deepest depth a maximum) = deepest depth (max a b) maximum := by
  unfold deepest
  split_ifs <;> omega

theorem deepest_succ (depth n maximum : ℕ) : deepest (depth + 1) n (max maximum depth) = deepest depth (n + 1) maximum := by
  unfold deepest
  by_cases hn : n = 0
  · subst hn
    simp
  · rw [if_neg hn, if_neg (Nat.succ_ne_zero n)]
    omega

mutual

theorem visit_eq : ∀ (v : Parsed) (depth count maximum : ℕ),
    visit v depth (count, maximum) = (count + v.inner, deepest depth v.nesting maximum)
  | .null, _, _, _ => rfl
  | .bool _, _, _, _ => rfl
  | .number _, _, _, _ => rfl
  | .string _, _, _, _ => rfl
  | .array items, depth, count, maximum => by
    rw [visit, visitItems_eq items, deepest_succ, Value.inner, Value.nesting, Nat.add_assoc]
  | .object members, depth, count, maximum => by
    rw [visit, visitMembers_eq members, deepest_succ, Value.inner, Value.nesting, Nat.add_assoc]

theorem visitItems_eq : ∀ (vs : List Parsed) (depth count maximum : ℕ),
    visitItems vs depth (count, maximum) =
      (count + Value.innerItems vs, deepest depth (Value.nestingItems vs) maximum)
  | [], _, _, _ => rfl
  | v :: vs, depth, count, maximum => by
    rw [visitItems, visit_eq v, visitItems_eq vs, deepest_deepest, Value.innerItems, Value.nestingItems,
      Nat.add_assoc]

theorem visitMembers_eq : ∀ (ms : List (String × Parsed)) (depth count maximum : ℕ),
    visitMembers ms depth (count, maximum) =
      (count + Value.innerMembers ms, deepest depth (Value.nestingMembers ms) maximum)
  | [], _, _, _ => rfl
  | (_, v) :: ms, depth, count, maximum => by
    rw [visitMembers, visit_eq v, visitMembers_eq ms, deepest_deepest, Value.innerMembers, Value.nestingMembers,
      Nat.add_assoc]

end

/-- The recursive shape of a parsed value is its count and its nesting below the root. -/
theorem jsonShape_eq (v : Parsed) : jsonShape v = (v.count, v.nesting - 1) := by
  rw [jsonShape, visit_eq]
  refine Prod.ext rfl ?_
  show deepest 0 v.nesting 0 = v.nesting - 1
  unfold deepest
  split_ifs <;> omega

variable {c : Scalars}

/-- An array read from elements of the same shapes. -/
theorem sameShape_array {vs : List Document} {ws : List Parsed} (h : List.Forall₂ SameShape vs ws) :
    SameShape (Value.array vs) (Value.array ws) := by
  obtain ⟨hlength, hinner, hnesting⟩ := sameShape_items h
  constructor
  · rw [Value.inner, Value.inner, hlength, hinner]
  · rw [Value.nesting, Value.nesting, hnesting]

/-- An object read from members of the same shapes, whatever order they are kept in. -/
theorem sameShape_object {ms : List (List UInt8 × Document)} {entries : List (String × Parsed)} {ws : List Parsed}
    (h : List.Forall₂ SameShape (ms.map Prod.snd) ws) (hperm : (entries.map Prod.snd).Perm ws) :
    SameShape (Value.object ms) (Value.object entries) := by
  obtain ⟨hlength, hinner, hnesting⟩ := sameShape_items h
  have hcount := hperm.length_eq
  rw [List.length_map] at hlength hcount
  constructor
  · rw [Value.inner, Value.inner, Value.innerMembers_eq, Value.innerMembers_eq, hinner, Value.innerItems_perm hperm,
      hlength, hcount]
  · rw [Value.nesting, Value.nesting, Value.nestingMembers_eq, Value.nestingMembers_eq, hnesting,
      Value.nestingItems_perm hperm]

mutual

/-- Reading a document whose keys are unique keeps its shape. -/
theorem parsed_shape : ∀ (v : Document) (root : Parsed), parsed c v = .ok root → UniqueKeys c v → SameShape v root
  | .null, root, h, _ => by
    cases h
    exact ⟨rfl, rfl⟩
  | .bool _, root, h, _ => by
    cases h
    exact ⟨rfl, rfl⟩
  | .number text, root, h, _ => by
    rw [parsed] at h
    obtain ⟨n, -, h⟩ := Checks.bind_ok.1 h
    obtain ⟨m, -, h⟩ := Checks.bind_ok.1 h
    cases h
    exact ⟨rfl, rfl⟩
  | .string text, root, h, _ => by
    rw [parsed] at h
    obtain ⟨value, -, h⟩ := Checks.bind_ok.1 h
    cases h
    exact ⟨rfl, rfl⟩
  | .array items, root, h, hkeys => by
    rw [parsed] at h
    obtain ⟨out, hout, h⟩ := Checks.bind_ok.1 h
    cases h
    rw [UniqueKeys] at hkeys
    obtain ⟨ws, rfl, hws⟩ := parsedSeq_shape items [] out hout hkeys
    exact sameShape_array hws
  | .object members, root, h, hkeys => by
    rw [parsed] at h
    obtain ⟨out, hout, h⟩ := Checks.bind_ok.1 h
    cases h
    rw [UniqueKeys] at hkeys
    have hempty : ∀ (key : String) (value : Parsed), OrderedMap.empty.get key = some value →
        Except.ok key ∈ ([] : List (Except String String)) := by
      intro key value hget
      cases hget
    obtain ⟨ws, hperm, hws⟩ := parsedMap_shape members OrderedMap.empty out [] hout hempty hkeys
    exact sameShape_object hws hperm

theorem parsedSeq_shape : ∀ (vs : List Document) (out out' : List Parsed), parsedSeq c vs out = .ok out' →
    UniqueKeysItems c vs → ∃ ws, out' = out ++ ws ∧ List.Forall₂ SameShape vs ws
  | [], out, out', h, _ => by
    cases h
    exact ⟨[], by simp, .nil⟩
  | v :: vs, out, out', h, hkeys => by
    rw [parsedSeq] at h
    obtain ⟨item, hitem, h⟩ := Checks.bind_ok.1 h
    rw [UniqueKeysItems] at hkeys
    have shape := parsed_shape v item hitem hkeys.1
    obtain ⟨ws, rfl, hws⟩ := parsedSeq_shape vs (out ++ [item]) out' h hkeys.2
    exact ⟨item :: ws, by simp, .cons shape hws⟩

theorem parsedMap_shape : ∀ (ms : List (List UInt8 × Document)) (out out' : OrderedMap String Parsed)
    (seen : List (Except String String)), parsedMap c ms out = .ok out' →
    (∀ key value, out.get key = some value → Except.ok key ∈ seen) → UniqueKeysMembers c ms seen →
    ∃ ws, (out'.entries.map Prod.snd).Perm (out.entries.map Prod.snd ++ ws) ∧
      List.Forall₂ SameShape (ms.map Prod.snd) ws
  | [], out, out', _, h, _, _ => by
    cases h
    exact ⟨[], by simp, .nil⟩
  | (key, v) :: ms, out, out', seen, h, hseen, hkeys => by
    rw [parsedMap] at h
    obtain ⟨name, hname, h⟩ := Checks.bind_ok.1 h
    obtain ⟨value, hvalue, h⟩ := Checks.bind_ok.1 h
    rw [UniqueKeysMembers, hname] at hkeys
    obtain ⟨hfresh, hv, hkeys⟩ := hkeys
    have shape := parsed_shape v value hvalue hv
    have hnone : out.get name = none := by
      rcases hget : out.get name with _ | a
      · rfl
      · exact absurd (hseen name a hget) hfresh
    have hinserted : ∀ key' value', (out.insert name value).get key' = some value' →
        Except.ok key' ∈ Except.ok name :: seen := by
      intro key' value' hget
      by_cases hkey : key' = name
      · exact hkey ▸ List.mem_cons_self
      · rw [OrderedMap.get_insert_of_ne _ hkey] at hget
        exact List.mem_cons_of_mem _ (hseen key' value' hget)
    obtain ⟨ws, hperm, hws⟩ := parsedMap_shape ms (out.insert name value) out' _ h hinserted hkeys
    refine ⟨value :: ws, hperm.trans ?_, .cons shape hws⟩
    have hinsert := (OrderedMap.insert_perm_of_none out value hnone).map Prod.snd
    exact (hinsert.append_right ws).trans List.perm_middle.symm

end

/-- The shape of a read document agrees with what the scan counts in its text. -/
theorem jsonShape_parsed {v : Document} {root : Parsed} (h : parsed c v = .ok root) (hkeys : UniqueKeys c v) :
    jsonShape root = (v.count, v.nesting - 1) := by
  obtain ⟨hinner, hnesting⟩ := parsed_shape v root h hkeys
  rw [jsonShape_eq, Value.count, Value.count, hinner, hnesting]

mutual

/-- What the visitor accepts has unique keys and is read as the library reads it. -/
theorem unique_ok : ∀ (v : Document) (root : Parsed), unique c v = .ok root → parsed c v = .ok root ∧ UniqueKeys c v
  | .null, root, h => by
    cases h
    exact ⟨rfl, trivial⟩
  | .bool _, root, h => by
    cases h
    exact ⟨rfl, trivial⟩
  | .number text, root, h => ⟨h, trivial⟩
  | .string text, root, h => by
    rw [unique] at h
    obtain ⟨value, hvalue, h⟩ := Checks.bind_ok.1 h
    obtain ⟨value', hvisit, h⟩ := Checks.bind_ok.1 h
    unfold visitString at hvisit
    split_ifs at hvisit
    cases hvisit
    refine ⟨?_, trivial⟩
    rw [parsed, hvalue]
    exact h
  | .array items, root, h => by
    rw [unique] at h
    obtain ⟨out, hout, h⟩ := Checks.bind_ok.1 h
    obtain ⟨hparsed, hkeys⟩ := uniqueSeq_ok items [] out hout
    rw [parsed, hparsed, UniqueKeys]
    exact ⟨h, hkeys⟩
  | .object members, root, h => by
    rw [unique] at h
    obtain ⟨out, hout, h⟩ := Checks.bind_ok.1 h
    obtain ⟨hparsed, hkeys⟩ := uniqueMap_ok members [] OrderedMap.empty out hout
    rw [parsed, hparsed, UniqueKeys]
    exact ⟨h, hkeys⟩

theorem uniqueSeq_ok : ∀ (vs : List Document) (out out' : List Parsed), uniqueSeq c vs out = .ok out' →
    parsedSeq c vs out = .ok out' ∧ UniqueKeysItems c vs
  | [], out, out', h => ⟨h, trivial⟩
  | v :: vs, out, out', h => by
    rw [uniqueSeq] at h
    obtain ⟨item, hitem, h⟩ := Checks.bind_ok.1 h
    split_ifs at h
    obtain ⟨hparsed, hv⟩ := unique_ok v item hitem
    obtain ⟨hrest, hvs⟩ := uniqueSeq_ok vs _ out' h
    rw [parsedSeq, hparsed, UniqueKeysItems]
    exact ⟨hrest, hv, hvs⟩

theorem uniqueMap_ok : ∀ (ms : List (List UInt8 × Document)) (seen : List String) (out out' : OrderedMap String Parsed),
    uniqueMap c ms seen out = .ok out' →
    parsedMap c ms out = .ok out' ∧ UniqueKeysMembers c ms (seen.map Except.ok)
  | [], seen, out, out', h => ⟨h, trivial⟩
  | (key, v) :: ms, seen, out, out', h => by
    rw [uniqueMap] at h
    obtain ⟨name, hname, h⟩ := Checks.bind_ok.1 h
    split_ifs at h with hlong hseen hmany
    obtain ⟨value, hvalue, h⟩ := Checks.bind_ok.1 h
    obtain ⟨hparsed, hv⟩ := unique_ok v value hvalue
    obtain ⟨hrest, hms⟩ := uniqueMap_ok ms (name :: seen) _ out' h
    rw [parsedMap, hname, Checks.ok_bind, hparsed, UniqueKeysMembers, hname]
    refine ⟨hrest, ?_, hv, hms⟩
    rintro hmem
    obtain ⟨name', hmem, heq⟩ := List.mem_map.1 hmem
    cases heq
    exact hseen hmem

end

end Shape

end LabRuntime.Wire
