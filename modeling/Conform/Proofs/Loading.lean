import Conform.Load
import Conform.Proofs.Build
import Conform.Proofs.Plain

/-!
# What is loaded is well-formed

That no object has a name twice is not in the type of values, and that none declares one twice is
not in the type of documents. Yet it is so of everything that is read, because the entries of an
object are written one after another by `Entries.insert`, and a name that is written again takes no
second place. `Value.valid_load` and `Document.namesDistinct_load` say so of all files, whatever is
in them. Nor is anything in a value that is loaded absent, or a number that is not finite
(`Value.plain_load`).

The readers of values are followed along the tree that a text describes. A document is decoded by
fields, whose contents are `FieldContent`, so there the induction carries what is known of each
field that has been read (`FieldContent.NamesDistinct`).
-/

namespace Conform

/-! ## Values -/

namespace Yaml

/-- The value of a scalar in range is plain, because a number that is not finite is null. -/
theorem Scalar.plain_toValue {scalar : Scalar} (h : scalar.InRange) : scalar.toValue.Plain := by
  cases scalar with
  | null => exact .null
  | bool b => exact .bool b
  | natural n => exact .number (Double.isFinite_ofQuotient_one false h)
  | negative n =>
    have hbits : n < 1 <<< 64 := h
    exact .number (Double.isFinite_ofInt (by omega))
  | float d =>
    rw [toValue]
    split
    · rename_i hfinite
      exact .number hfinite
    · exact .null
  | text s => exact .string s

namespace Tree

mutual

/-- The value of a tree is plain. -/
theorem plain_toValue : ∀ (tree : Tree) (value : Value), tree.toValue = .ok value → value.Plain
  | .scalar tag plain text, value, h => by
    rw [toValue] at h
    obtain ⟨scalar, hscalar, rfl⟩ := map_eq_ok.1 h
    exact Scalar.plain_toValue (inRange_resolveScalar hscalar)
  | .sequence tag items, value, h => by
    rw [toValue] at h
    obtain ⟨-, -, h⟩ := bind_eq_ok.1 h
    obtain ⟨values, hvalues, h⟩ := bind_eq_ok.1 h
    obtain rfl := Except.ok.inj h
    exact .array (plain_itemsToValue items values hvalues)
  | .mapping tag entries, value, h => by
    rw [toValue] at h
    obtain ⟨-, -, h⟩ := bind_eq_ok.1 h
    obtain ⟨read, hread, h⟩ := bind_eq_ok.1 h
    obtain rfl := Except.ok.inj h
    obtain ⟨hdistinct, hvalues⟩ := plain_entriesToValue entries [] read List.nodup_nil nofun hread
    exact .object hdistinct hvalues

/-- The values of the items are plain. -/
theorem plain_itemsToValue : ∀ (items : List Tree) (values : List Value),
    itemsToValue items = .ok values → ∀ value ∈ values, value.Plain
  | [], values, h => by
    obtain rfl := Except.ok.inj h
    exact nofun
  | item :: rest, values, h => by
    rw [itemsToValue] at h
    obtain ⟨value, hvalue, h⟩ := bind_eq_ok.1 h
    obtain ⟨others, hothers, h⟩ := bind_eq_ok.1 h
    obtain rfl := Except.ok.inj h
    exact List.forall_mem_cons.2
      ⟨plain_toValue item value hvalue, plain_itemsToValue rest others hothers⟩

/-- Plain entries under distinct names are so with those that are read behind them. -/
theorem plain_entriesToValue : ∀ (entries : List (Tree × Tree))
    (done read : List (String × Value)), Entries.Distinct done → (∀ e ∈ done, e.2.Plain) →
      entriesToValue done entries = .ok read →
        Entries.Distinct read ∧ ∀ e ∈ read, e.2.Plain
  | [], done, read, hdistinct, hdone, h => by
    obtain rfl := Except.ok.inj h
    exact ⟨hdistinct, hdone⟩
  | (key, tree) :: rest, done, read, hdistinct, hdone, h => by
    rw [entriesToValue] at h
    obtain ⟨name, -, h⟩ := bind_eq_ok.1 h
    obtain ⟨value, hvalue, h⟩ := bind_eq_ok.1 h
    -- A name that was read before is not put in twice.
    refine plain_entriesToValue rest _ read (Entries.distinct_insert name value hdistinct)
      (fun e he => ?_) h
    rcases Entries.mem_insert he with rfl | he
    · exact plain_toValue tree value hvalue
    · exact hdone e he

end

end Tree

/-- A text in YAML is read as a plain value. -/
theorem plain_parseValue {text : String} {value : Value} (h : parseValue text = .ok value) :
    value.Plain := by
  unfold parseValue at h
  obtain ⟨tree, -, h⟩ := bind_eq_ok.1 h
  cases tree with
  | none =>
    obtain rfl := Except.ok.inj h
    exact .null
  | some tree => exact tree.plain_toValue value h

end Yaml

/-! ## Documents -/

/-- No name is declared twice in the documents that a field holds. -/
def FieldContent.NamesDistinct : FieldContent → Prop
  | .literals _ | .name _ => True
  | .document d => d.NamesDistinct
  | .documents ds => ∀ d ∈ ds, d.NamesDistinct
  | .properties ps => Entries.Distinct ps ∧ ∀ p ∈ ps, p.2.NamesDistinct

namespace Document

/-- A document declares no name twice if neither its root nor a child does. -/
theorem NamesDistinct.of_children {document : Document} (here : document.declaredNames.Nodup)
    (child : ∀ d ∈ document.children, d.NamesDistinct) : document.NamesDistinct := by
  intro node hnode
  rw [nodes_eq] at hnode
  rcases List.mem_cons.1 hnode with rfl | hnode
  · exact here
  · obtain ⟨d, hd, hnode⟩ := List.mem_flatMap.1 hnode
    exact child d hd node hnode

/-- What is found under the name of a field is among the fields. -/
theorem namesDistinct_content {fields : List (String × FieldContent)} {name : String}
    {found : FieldContent} (hfields : ∀ f ∈ fields, f.2.NamesDistinct)
    (h : content fields name = .ok found) : found.NamesDistinct := by
  unfold content at h
  split at h
  · rename_i held hheld
    obtain rfl := Except.ok.inj h
    exact hfields _ (Entries.mem_of_get? hheld)
  · cases h

/-- A document of fields that declare no name twice declares none twice. -/
theorem namesDistinct_assemble {type : DocumentType} {fields : List (String × FieldContent)}
    {make : Modifiers → Document} (hfields : ∀ f ∈ fields, f.2.NamesDistinct)
    (h : assemble type fields = .ok make) (m : Modifiers) : (make m).NamesDistinct := by
  cases type with
  | primitive p =>
    obtain rfl := Except.ok.inj h
    exact .of_children List.nodup_nil nofun
  | options =>
    obtain ⟨found, hfound, h⟩ := bind_eq_ok.1 h
    cases found with
    | literals =>
      obtain rfl := Except.ok.inj h
      exact .of_children List.nodup_nil nofun
    | _ => cases h
  | parser =>
    obtain ⟨found, hfound, h⟩ := bind_eq_ok.1 h
    cases found with
    | name =>
      obtain rfl := Except.ok.inj h
      exact .of_children List.nodup_nil nofun
    | _ => cases h
  | union =>
    obtain ⟨found, hfound, h⟩ := bind_eq_ok.1 h
    cases found with
    | documents members =>
      obtain rfl := Except.ok.inj h
      exact .of_children List.nodup_nil (namesDistinct_content hfields hfound)
    | _ => cases h
  | array =>
    obtain ⟨found, hfound, h⟩ := bind_eq_ok.1 h
    cases found with
    | document items =>
      obtain rfl := Except.ok.inj h
      exact .of_children List.nodup_nil
        (List.forall_mem_singleton.2 (namesDistinct_content hfields hfound))
    | _ => cases h
  | tuple =>
    obtain ⟨found, hfound, h⟩ := bind_eq_ok.1 h
    cases found with
    | documents items =>
      obtain rfl := Except.ok.inj h
      exact .of_children List.nodup_nil (namesDistinct_content hfields hfound)
    | _ => cases h
  | object =>
    obtain ⟨found, hfound, h⟩ := bind_eq_ok.1 h
    cases found with
    | properties properties =>
      obtain rfl := Except.ok.inj h
      obtain ⟨hdistinct, hproperties⟩ := namesDistinct_content hfields hfound
      exact .of_children hdistinct (List.forall_mem_map.2 hproperties)
    | _ => cases h
  | record =>
    obtain ⟨keys, hkeys, h⟩ := bind_eq_ok.1 h
    obtain ⟨values, hvalues, h⟩ := bind_eq_ok.1 h
    cases keys with
    | document keys =>
      cases values with
      | document values =>
        obtain rfl := Except.ok.inj h
        exact .of_children List.nodup_nil
          (List.forall_mem_singleton.2 (namesDistinct_content hfields hvalues))
      | _ => cases h
    | _ => cases h

/-- What a member holds, in the shape of its field. -/
def decodeContent (value : Markup) : FieldShape → Except Mismatch FieldContent
  | .literals => (Literal.decodeList value).map .literals
  | .name => (decodeText value).map .name
  | .document => (decode value).map .document
  | .documents =>
    match value with
    | .list items => (decodeItems items).map .documents
    | tree => .error (.wrongType tree.finding "a sequence")
  | .properties =>
    match value with
    | .map members => (decodeProperties [] members).map .properties
    | tree => .error (.wrongType tree.finding "a map")

/-- A member that is a field is read in the field's shape before the others. -/
theorem decodeFields_cons {type : DocumentType} {done : List (String × FieldContent)}
    {key : Markup.Key} {value : Markup} {rest : List (Markup.Key × Markup)} :
    decodeFields type done ((key, value) :: rest) =
      match type.field? key with
      | none => decodeFields type done rest
      | some (name, shape) =>
        if Entries.contains name done then .error (.duplicateField name)
        else
          decodeContent value shape >>= fun found =>
            decodeFields type (done ++ [(name, found)]) rest := by
  rw [decodeFields]
  -- The reader has the rest of the fields behind each shape, and here they stand once behind all.
  cases type.field? key with
  | none => rfl
  | some field =>
    obtain ⟨name, shape⟩ := field
    cases shape <;> cases value <;> rfl

mutual

/-- A document that is decoded declares no name twice. -/
theorem namesDistinct_decode : ∀ (markup : Markup) (document : Document),
    decode markup = .ok document → document.NamesDistinct
  | .map members, document, h => by
    rw [decode] at h
    obtain ⟨-, -, h⟩ := bind_eq_ok.1 h
    obtain ⟨type, -, h⟩ := bind_eq_ok.1 h
    obtain ⟨fields, hfields, h⟩ := bind_eq_ok.1 h
    obtain ⟨make, hmake, h⟩ := bind_eq_ok.1 h
    obtain ⟨m, -, h⟩ := bind_eq_ok.1 h
    obtain rfl := Except.ok.inj h
    exact namesDistinct_assemble (namesDistinct_decodeFields members type [] fields nofun hfields)
      hmake m
  | .null, _, h | .bool _, _, h | .natural _, _, h | .negative _, _, h | .float _, _, h
  | .text _, _, h | .list _, _, h => by cases h

/-- Fields that are read behind fields that declare no name twice declare none twice. -/
theorem namesDistinct_decodeFields : ∀ (members : List (Markup.Key × Markup))
    (type : DocumentType) (done fields : List (String × FieldContent)),
    (∀ f ∈ done, f.2.NamesDistinct) → decodeFields type done members = .ok fields →
      ∀ f ∈ fields, f.2.NamesDistinct
  | [], type, done, fields, hdone, h => by
    obtain rfl := Except.ok.inj h
    exact hdone
  | (key, value) :: rest, type, done, fields, hdone, h => by
    rw [decodeFields_cons] at h
    split at h
    · exact namesDistinct_decodeFields rest type done fields hdone h
    · rename_i name shape _
      split at h
      · cases h
      · obtain ⟨found, hfound, h⟩ := bind_eq_ok.1 h
        refine namesDistinct_decodeFields rest type _ fields (fun f hf => ?_) h
        rcases List.mem_append.1 hf with hf | hf
        · exact hdone f hf
        · rw [List.mem_singleton.1 hf]
          exact namesDistinct_decodeContent value shape found hfound

/-- What is held in a field declares no name twice. -/
theorem namesDistinct_decodeContent : ∀ (value : Markup) (shape : FieldShape)
    (found : FieldContent), decodeContent value shape = .ok found → found.NamesDistinct
  | value, .literals, found, h => by
    obtain ⟨_, -, rfl⟩ := map_eq_ok.1 h
    trivial
  | value, .name, found, h => by
    obtain ⟨_, -, rfl⟩ := map_eq_ok.1 h
    trivial
  | value, .document, found, h => by
    obtain ⟨document, hdocument, rfl⟩ := map_eq_ok.1 h
    exact namesDistinct_decode value document hdocument
  | value, .documents, found, h => by
    cases value with
    | list items =>
      obtain ⟨documents, hdocuments, rfl⟩ := map_eq_ok.1 h
      exact namesDistinct_decodeItems items documents hdocuments
    | _ => cases h
  | value, .properties, found, h => by
    cases value with
    | map members =>
      obtain ⟨properties, hproperties, rfl⟩ := map_eq_ok.1 h
      exact namesDistinct_decodeProperties members [] properties ⟨List.nodup_nil, nofun⟩
        hproperties
    | _ => cases h

/-- The documents in a list declare no name twice. -/
theorem namesDistinct_decodeItems : ∀ (items : List Markup) (documents : List Document),
    decodeItems items = .ok documents → ∀ d ∈ documents, d.NamesDistinct
  | [], documents, h => by
    obtain rfl := Except.ok.inj h
    exact nofun
  | item :: rest, documents, h => by
    rw [decodeItems] at h
    obtain ⟨document, hdocument, h⟩ := bind_eq_ok.1 h
    obtain ⟨others, hothers, h⟩ := bind_eq_ok.1 h
    obtain rfl := Except.ok.inj h
    exact List.forall_mem_cons.2
      ⟨namesDistinct_decode item document hdocument, namesDistinct_decodeItems rest others hothers⟩

/-- Properties that are read behind others have distinct names if those have. -/
theorem namesDistinct_decodeProperties : ∀ (members : List (Markup.Key × Markup))
    (done properties : List (String × Document)),
    (FieldContent.properties done).NamesDistinct → decodeProperties done members = .ok properties →
      (FieldContent.properties properties).NamesDistinct
  | [], done, properties, hdone, h => by
    obtain rfl := Except.ok.inj h
    exact hdone
  | (.text name, value) :: rest, done, properties, hdone, h => by
    rw [decodeProperties] at h
    obtain ⟨document, hdocument, h⟩ := bind_eq_ok.1 h
    refine namesDistinct_decodeProperties rest _ properties ⟨?_, fun p hp => ?_⟩ h
    · exact Entries.distinct_insert name document hdone.1
    · rcases Entries.mem_insert hp with rfl | hp
      · exact namesDistinct_decode value document hdocument
      · exact hdone.2 p hp
  | (.natural _, _) :: _, _, _, _, h | (.other _, _) :: _, _, _, _, h => by cases h

end

/-- A text in JSON is read as a document that declares no name twice. -/
theorem namesDistinct_parseJson {text : String} {document : Document}
    (h : parseJson text = .ok document) : document.NamesDistinct := by
  have hbefore {cs rest : List Char} {tree : Markup} {d : Document}
      (h : decodeBefore cs rest tree = .ok d) : d.NamesDistinct :=
    namesDistinct_decode tree d (mapError_eq_ok.1 h)
  simp only [parseJson] at h
  split at h
  · exact hbefore h
  · obtain ⟨⟨tree, rest⟩, -, h⟩ := bind_eq_ok.1 h
    obtain ⟨d, hd, h⟩ := bind_eq_ok.1 h
    obtain ⟨-, -, h⟩ := bind_eq_ok.1 h
    obtain rfl := Except.ok.inj h
    exact hbefore hd

end Document

/-! ## Files -/

/-- What holds of all that either reader makes of a text holds of all that is loaded. -/
theorem loadFile_induct {α : Type} {P : α → Prop} {json yaml : String → Except ReadFault α}
    (hjson : ∀ text a, json text = .ok a → P a) (hyaml : ∀ text a, yaml text = .ok a → P a)
    {files : Files} {path : String} {a : α} (h : loadFile json yaml files path = .ok a) : P a := by
  obtain ⟨text, -, h⟩ := bind_eq_ok.1 h
  rw [mapError_eq_ok] at h
  split at h
  · exact hyaml text a h
  · exact hjson text a h

/-- A value that is loaded is plain. -/
theorem Value.plain_load {files : Files} {path : String} {value : Value}
    (h : Value.load files path = .ok value) : value.Plain := by
  refine loadFile_induct (fun text value h => ?_) (fun text value h => ?_) h
  · unfold parseJson at h
    split at h
    · rename_i document hdocument
      obtain rfl := Except.ok.inj h
      exact plain_ofJson document (Json.numbersValid_parse hdocument)
    · cases h
  · exact Yaml.plain_parseValue (mapError_eq_ok.1 h)

/-- In a value that is loaded no object has a name twice. -/
theorem Value.valid_load {files : Files} {path : String} {value : Value}
    (h : Value.load files path = .ok value) : value.Valid :=
  (plain_load h).valid

/-- In a document that is loaded no object declares a name twice. -/
theorem Document.namesDistinct_load {files : Files} {path : String} {document : Document}
    (h : Document.load files path = .ok document) : document.NamesDistinct := by
  refine loadFile_induct (fun text document h => ?_) (fun text document h => ?_) h
  · exact namesDistinct_parseJson (mapError_eq_ok.1 h)
  · obtain ⟨markup, -, h⟩ := bind_eq_ok.1 h
    exact namesDistinct_decode markup document (mapError_eq_ok.1 h)

end Conform
