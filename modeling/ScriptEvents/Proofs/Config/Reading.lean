import ScriptEvents.Config
import ScriptEvents.Proofs.Json.Printing
/-!
Reading settings back: the JSON object of some of the fields, in any order and with blanks anywhere,
is read as settings that have those fields and the defaults in place of the others.
-/
namespace ScriptEvents.Config

def json (c : Config) : Field → Json
  | .firstListenerId => .integer c.firstListenerId.toInt
  | .quoteArguments => .boolean c.quoteArguments
  | .lifecycleBufferSize => .integer c.lifecycleBufferSize.toNat
  | .ignoredDirectives => .array (c.ignoredDirectives.map fun name => .string (some name))

def jsonOf (c : Config) (fields : List Field) : Json :=
  .object (fields.map fun field => (some field.name, c.json field))

/-- The settings with these fields kept and the others left at their defaults. -/
def keeping (c : Config) (fields : List Field) : Config where
  firstListenerId := if .firstListenerId ∈ fields then c.firstListenerId else 0
  quoteArguments := if .quoteArguments ∈ fields then c.quoteArguments else true
  lifecycleBufferSize := if .lifecycleBufferSize ∈ fields then c.lifecycleBufferSize else 256
  ignoredDirectives := if .ignoredDirectives ∈ fields then c.ignoredDirectives else []

theorem keeping_nil (c : Config) : c.keeping [] = {} := rfl

theorem keeping_all (c : Config) : c.keeping Field.all = c := rfl

theorem keeping_congr (c : Config) {fields others : List Field}
    (same : ∀ field, field ∈ fields ↔ field ∈ others) : c.keeping fields = c.keeping others := by
  simp only [keeping, same]

theorem prints_valueText (c : Config) (field : Field) :
    Json.Prints (c.json field).tokens (c.valueText field) := by
  cases field with
  | firstListenerId | lifecycleBufferSize => exact Json.prints_integer _
  | quoteArguments => exact Json.prints_boolean _
  | ignoredDirectives => exact Json.prints_array fun name _ => Json.prints_string name

theorem spells_textOf (c : Config) (fields : List Field) :
    Json.Spells (c.jsonOf fields).tokens (c.textOf fields).toList :=
  (Json.prints_object fun field _ => c.prints_valueText field).spells

theorem ofName?_name (field : Field) : Field.ofName? field.name = some field := by
  cases field <;> decide

theorem mapM_name? (names : List String) :
    (names.map fun name => Json.string (some name)).mapM name? = some names := by
  induction names with
  | nil => rfl
  | cons name names ih => simp [ih, name?]

theorem set?_json (c : Config) (kept : List Field) (field : Field) :
    (c.keeping kept).set? field (c.json field) = some (c.keeping (field :: kept)) := by
  cases field with
  | firstListenerId =>
    have range := And.intro c.firstListenerId.minValue_le_toInt c.firstListenerId.toInt_le
    simp only [json, set?, if_pos range, Int64.ofInt_toInt]
    simp [keeping]
  | quoteArguments => simp [json, set?, keeping]
  | lifecycleBufferSize =>
    have range : 0 ≤ (c.lifecycleBufferSize.toNat : Int) ∧
        c.lifecycleBufferSize.toNat < UInt64.size :=
      ⟨Int.natCast_nonneg _, c.lifecycleBufferSize.toNat_lt_size⟩
    simp only [json, set?, Int.toNat_natCast, if_pos range, UInt64.ofNat_toNat]
    simp [keeping]
  | ignoredDirectives =>
    simp only [json, set?, mapM_name?, Option.map_some]
    simp [keeping]

theorem setMembers?_keeping (c : Config) {kept fields : List Field} (distinct : fields.Nodup)
    (fresh : ∀ field ∈ fields, field ∉ kept) :
    (c.keeping kept).setMembers? kept (fields.map fun field => (some field.name, c.json field)) =
      some (c.keeping (fields.reverse ++ kept)) := by
  induction fields generalizing kept with
  | nil => rfl
  | cons field fields ih =>
    obtain ⟨once, distinct⟩ := List.nodup_cons.1 distinct
    rw [List.forall_mem_cons] at fresh
    simp only [List.map_cons, setMembers?, ofName?_name, if_neg fresh.1, set?_json]
    rw [ih distinct, List.reverse_cons, List.append_assoc, List.singleton_append]
    intro other hother
    rw [List.mem_cons, not_or]
    exact ⟨fun same => once (same ▸ hother), fresh.2 other hother⟩

theorem ofJson?_jsonOf (c : Config) {fields : List Field} (distinct : fields.Nodup) :
    ofJson? (c.jsonOf fields) = some (c.keeping fields) := by
  have members : (c.keeping []).setMembers? []
      (fields.map fun field => (some field.name, c.json field)) =
        some (c.keeping (fields.reverse ++ [])) :=
    c.setMembers?_keeping distinct fun _ _ => List.not_mem_nil
  rw [keeping_nil, List.append_nil, c.keeping_congr fun _ => List.mem_reverse] at members
  exact members

theorem ofText_of_spells (c : Config) {fields : List Field} (distinct : fields.Nodup)
    {text : String} (spells : Json.Spells (c.jsonOf fields).tokens text.toList) :
    ofText text = .ok (c.keeping fields) := by
  rw [ofText, ofJson, Json.parse?_of_spells spells]
  simp only [Option.bind_some, ofJson?_jsonOf c distinct]

/-- The object of some of the fields is read back, however it is laid out, and so is that of all. -/
theorem reads_back (c : Config) {fields : List Field} (distinct : fields.Nodup) :
    ofText (c.textOf fields) = .ok (c.keeping fields) ∧
    (∀ text : String, Json.Spells (c.jsonOf fields).tokens text.toList →
      ofText text = .ok (c.keeping fields)) ∧
    ofText c.text = .ok c := by
  have whole : ofText c.text = .ok (c.keeping Field.all) :=
    c.ofText_of_spells (by decide) (c.spells_textOf Field.all)
  rw [keeping_all] at whole
  exact ⟨c.ofText_of_spells distinct (c.spells_textOf fields),
    fun _ => c.ofText_of_spells distinct, whole⟩

/-- Ids are counted from the least of all, and a name is ignored that cannot stand in a text as it
is. -/
def unusual : Config :=
  { firstListenerId := Int64.minValue, quoteArguments := false
    ignoredDirectives := ["say \"tick\"\n\x01é"] }

def unusualText : String :=
  "\x7b\"ignored_directives\":[\"say \\\"tick\\\"\\n\\u0001é\"]," ++
    "\"first_listener_id\":-9223372036854775808\x7d"

def spacedText : String := "\x7b \"quote_arguments\"\n: false\x7d"

theorem reads_back_unusual : [Field.ignoredDirectives, .firstListenerId].Nodup ∧
    [Field.quoteArguments].Nodup ∧
    unusual.textOf [.ignoredDirectives, .firstListenerId] = unusualText ∧
    ofText unusualText =
      .ok { firstListenerId := Int64.minValue, ignoredDirectives := ["say \"tick\"\n\x01é"] } ∧
    ofText spacedText = .ok { quoteArguments := false } := by
  have distinct : [Field.ignoredDirectives, .firstListenerId].Nodup := by decide
  have alone : [Field.quoteArguments].Nodup := by decide
  have written : unusual.textOf [.ignoredDirectives, .firstListenerId] = unusualText := rfl
  have name : Json.Token.Written (.string (some "quote_arguments"))
      "\"quote_arguments\"".toList := .string "quote_arguments"
  have spaced : Json.Spells (unusual.jsonOf [.quoteArguments]).tokens spacedText.toList :=
    .mark .beginObject nofun (.blank rfl (.token name nofun (.blank rfl (.mark .colon nofun
      (.blank rfl (.token (.boolean false) nofun (.mark .endObject nofun .nil)))))))
  have read := (reads_back unusual distinct).1
  rw [written] at read
  exact ⟨distinct, alone, written, read, (reads_back unusual alone).2.1 spacedText spaced⟩

end ScriptEvents.Config
