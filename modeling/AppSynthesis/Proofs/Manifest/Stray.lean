/-
AppSynthesis.Proofs.Manifest.Stray — the documents that are neither read nor refused.

* `Value.NoMap` — a value counts as given, and nothing can be looked up in it.
* `checkVersion_eq_fault`, `Metadata.parse_eq_fault`, `parsePart_eq_fault`,
  `parseOwnerReferences_eq_fault` — which values the single steps come to grief over.
* `Value.Stray` — a document of a kind has a value that nothing checks for, while all that is read
  before it is in order.
* `Resource.parse_eq_fault` — reading ends in a fault without a message exactly over a stray value.

A value that does not count as given is taken for a missing one, and what is given inside a part
is checked by its codec. So the strays are the values between: the API version, the metadata, the
owner references and the parts themselves.
-/
import AppSynthesis.Proofs.Manifest.Parsed

namespace AppSynthesis

/-! ## Values that are no maps -/

namespace Value

/-- Whether a value is a map. -/
def isMap : Value → Bool
  | .map _ _ => true
  | _ => false

/-- A value counts as given, but is no map. -/
def NoMap (v : Value) : Prop := v.isTrue = true ∧ v.isMap = false

instance (v : Value) : Decidable v.NoMap := inferInstanceAs (Decidable (_ ∧ _))

variable {v w : Value} {name : String} {f : Fault}

theorem member_eq_fault : v.member name = .error (.fault f) ↔ v.isMap = false ∧ f = .noMember := by
  cases v <;> simp [member, isMap, eq_comm]

/-- The member that is looked up is the one at its place, if it counts as given. -/
theorem member_iff_at? (hw : w.isTrue = true) :
    v.member name = .ok w ↔ v.at? [.key name] = some w := by
  have hnull : w ≠ .null := by
    rintro rfl
    cases hw
  cases v with
  | map origin entries =>
    simp only [member, at?, Entries.getD, Except.ok.injEq]
    rcases Entries.get? entries name with _ | u
    · simpa using Ne.symm hnull
    · simp
  | _ => simp [member, at?]

/-- A member that is needed: it is no fault when it is missing, but when it cannot be looked up. -/
theorem needed_eq_fault {v : Value} {name : String} {α : Type} {e : InputError}
    {next : Value → Except Error α} :
    (do let w ← (← v.member name).given e; next w) = .error (.fault f) ↔
      (v.isMap = false ∧ f = .noMember) ∨
        ∃ w, v.at? [.key name] = some w ∧ w.isTrue = true ∧ next w = .error (.fault f) := by
  have hgiven (w : Value) : w.given e ≠ .error (.fault f) := by
    unfold given
    split <;> simp
  simp only [bind_eq_error, member_eq_fault, hgiven, false_or, given_eq_ok]
  refine or_congr_right ⟨?_, ?_⟩
  · rintro ⟨_, hmember, _, ⟨htrue, rfl⟩, hnext⟩
    exact ⟨_, (member_iff_at? htrue).mp hmember, htrue, hnext⟩
  · rintro ⟨w, hplace, htrue, hnext⟩
    exact ⟨w, (member_iff_at? htrue).mpr hplace, w, ⟨htrue, rfl⟩, hnext⟩

theorem noMap_orElse {v : Value} : (v.orElse .emptyMap).isMap = false ↔ v.NoMap := by
  unfold orElse NoMap
  split <;> rename_i h <;> simp [h, emptyMap, isMap]

/-- There is nothing inside a value that does not count as given. -/
theorem at?_orElse (v : Value) (step : Step) (rest : Path) :
    (v.orElse .emptyMap).at? (step :: rest) = v.at? (step :: rest) := by
  unfold orElse
  split
  · rfl
  · rename_i h
    have hnone : Value.emptyMap.at? (step :: rest) = none := by cases step <;> rfl
    rw [hnone]
    cases v with
    | list origin items =>
      obtain rfl : items = [] := by simpa [isTrue] using h
      cases step <;> rfl
    | map origin entries =>
      obtain rfl : entries = [] := by simpa [isTrue] using h
      cases step <;> rfl
    | _ => cases step <;> rfl

end Value

/-! ## Steps of reading -/

section

variable {doc : Value} {kind : Kind} {f : Fault}

theorem checkVersion_eq_fault (hdoc : doc.isMap = true) :
    checkVersion kind doc = .error (.fault f) ↔ f = .noMember ∧
      ∃ v, doc.at? [.key "apiVersion"] = some v ∧ v.isTrue = true ∧ v.isText = false := by
  unfold checkVersion
  rw [Value.needed_eq_fault, hdoc]
  constructor
  · rintro (⟨hmap, -⟩ | ⟨v, hplace, htrue, h⟩)
    · cases hmap
    · cases v
      case str s =>
        dsimp only at h
        split at h <;> cases h
      all_goals
        cases h
        exact ⟨rfl, _, hplace, htrue, rfl⟩
  · rintro ⟨rfl, v, hplace, htrue, htext⟩
    refine .inr ⟨v, hplace, htrue, ?_⟩
    cases v <;> first | rfl | cases htext

theorem Metadata.parse_eq_fault (hdoc : doc.isMap = true) :
    Metadata.parse kind doc = .error (.fault f) ↔ f = .noMember ∧
      ∃ v, doc.at? [.key "metadata"] = some v ∧ v.NoMap := by
  unfold Metadata.parse
  rw [Value.needed_eq_fault, hdoc]
  constructor
  · rintro (⟨hmap, -⟩ | ⟨metadata, hplace, htrue, h⟩)
    · cases hmap
    · rcases Value.needed_eq_fault.mp h with ⟨hmap, rfl⟩ | ⟨name, -, -, h⟩
      · exact ⟨rfl, metadata, hplace, htrue, hmap⟩
      · rcases Value.needed_eq_fault.mp h with ⟨hmap, rfl⟩ | ⟨ns, -, -, h⟩
        · exact ⟨rfl, metadata, hplace, htrue, hmap⟩
        · cases metadata <;> cases h
          all_goals exact ⟨rfl, _, hplace, htrue, rfl⟩
  · rintro ⟨rfl, metadata, hplace, htrue, hmap⟩
    exact .inr ⟨metadata, hplace, htrue, Value.needed_eq_fault.mpr (.inl ⟨hmap, rfl⟩)⟩

/-- What stands in metadata that were read is found there. -/
theorem Metadata.at?_of_parse {m : Metadata} (h : Metadata.parse kind doc = .ok m) (name : String) :
    doc.at? [.key "metadata", .key name] = Entries.get? m.entries name := by
  unfold Metadata.parse at h
  obtain ⟨_, hmember, h⟩ := bind_eq_ok.mp h
  obtain ⟨metadata, hgiven, h⟩ := bind_eq_ok.mp h
  obtain ⟨_, _, h⟩ := bind_eq_ok.mp h
  obtain ⟨_, _, h⟩ := bind_eq_ok.mp h
  obtain ⟨_, _, h⟩ := bind_eq_ok.mp h
  obtain ⟨_, _, h⟩ := bind_eq_ok.mp h
  split at h <;> cases h
  obtain ⟨htrue, rfl⟩ := Value.given_eq_ok.mp hgiven
  rw [Value.at?_cons, (Value.member_iff_at? htrue).mp hmember, Option.bind_some, Value.at?]
  cases Entries.get? _ name <;> rfl

/-- A field that is missing or cannot be read. -/
def DecodeError.IsField : DecodeError → Prop
  | .missing _ _ _ => True
  | .invalid _ _ _ _ => True
  | _ => False

/-- The errors of a row of fields are those of its fields. -/
theorem Fields.isField_of_decode {record : String} {entries : Entries} {e : DecodeError} :
    ∀ {α : Type} {fields : Fields α}, fields.decode record entries = .error e → e.IsField := by
  have hfield {β : Type} {name label : String} {codec : Codec β} {v : Value}
      (h : readField record name label codec v = .error e) : e.IsField := by
    unfold readField at h
    split at h <;> cases h
    trivial
  have hrest {β γ : Type} {rest : Fields γ} {x : β}
      (ih : rest.decode record entries = .error e → e.IsField)
      (h : (do return (x, ← rest.decode record entries)) = Except.error e) : e.IsField := by
    rcases bind_eq_error.mp h with h | ⟨_, _, h⟩
    · exact ih h
    · cases h
  intro α fields h
  induction fields with
  | done => cases h
  | required name key codec rest ih | defaulted name key codec value rest ih =>
    rw [decode] at h
    split at h
    · rcases bind_eq_error.mp h with h | ⟨x, _, h⟩
      · cases h
        try trivial
      · exact hrest ih h
    · rcases bind_eq_error.mp h with h | ⟨x, _, h⟩
      · exact hfield h
      · exact hrest ih h
  | optional name key codec rest ih | loose name key codec rest ih =>
    rw [decode] at h
    split at h
    · rcases bind_eq_error.mp h with h | ⟨x, _, h⟩
      · cases h
      · exact hrest ih h
    · rcases bind_eq_error.mp h with h | ⟨x, _, h⟩
      · first | exact hfield h | exact hfield (map_eq_error.mp h)
      · exact hrest ih h

/-- Why a value is not read as a record, from the outside to the inside. -/
theorem Schema.decode_eq_error {α : Type} {s : Schema α} {v : Value} {e : DecodeError}
    (h : s.decode v = .error e) :
    (v.isMap = false ∧ e = .notMap) ∨ e.IsField ∨
      ∃ origin entries, v = .map origin entries ∧
        e = .unknownKeys s.name (s.unknownKeys entries) := by
  unfold decode at h
  split at h
  · rename_i origin entries
    split at h
    · exact .inr (.inl (Fields.isField_of_decode (map_eq_error.mp h)))
    · cases h
      rename_i hkeys _
      exact .inr (.inr ⟨origin, entries, rfl, rfl⟩)
  · cases h
    refine .inl ⟨?_, rfl⟩
    cases v <;> first | rfl | simp_all

/-- A part comes to grief only over a value that is no map, where keys are text. -/
theorem parsePart_error_cases {α : Type} {s : Schema α} {owner : String} {v : Value}
    (hv : v.isJson = true) {e : Error} (h : parsePart s owner v = .error e) :
    (v.isMap = false ∧ e = .fault .noMember) ∨ ∃ cause, e = .input cause := by
  unfold parsePart at h
  split at h
  · cases h
  · rename_i hdecode
    cases h
    rcases s.decode_eq_error hdecode with ⟨hmap, -⟩ | hfield | ⟨_, _, _, heq⟩
    · exact .inl ⟨hmap, rfl⟩
    · exact hfield.elim
    · cases heq
  · rename_i record keys hdecode
    rcases s.decode_eq_error hdecode with ⟨_, heq⟩ | hfield | ⟨origin, entries, rfl, heq⟩
    · cases heq
    · exact hfield.elim
    · cases heq
      have htext : (s.unknownKeys entries).all Value.isText = true := by
        refine List.all_eq_true.mpr fun k hk => ?_
        obtain ⟨e, he, rfl⟩ := List.mem_map.mp (List.mem_filter.mp hk).1
        exact ((Value.entriesJson_iff.mp hv).2 e he).1
      rw [if_pos htext] at h
      cases h
      exact .inr ⟨_, rfl⟩
  · cases h
    exact .inr ⟨_, rfl⟩

theorem parsePart_eq_fault {α : Type} {s : Schema α} {owner : String} {v : Value}
    (hv : v.isJson = true) :
    parsePart s owner v = .error (.fault f) ↔ v.isMap = false ∧ f = .noMember := by
  constructor
  · intro h
    rcases parsePart_error_cases hv h with ⟨hmap, heq⟩ | ⟨_, heq⟩
    · exact ⟨hmap, Error.fault.inj heq⟩
    · cases heq
  · rintro ⟨hmap, rfl⟩
    cases v <;> first | rfl | cases hmap

theorem parseOwnerReferences_eq_fault {m : Metadata} {origin : Origin}
    (hm : (Value.map origin m.entries).isJson = true) :
    parseOwnerReferences m = .error (.fault f) ↔
      ∃ v, Entries.get? m.entries "ownerReferences" = some v ∧
        ((v.members? = none ∧ f = .wrongKind) ∨
          ∃ front w back, v.members? = some (front ++ w :: back) ∧
            (∀ u ∈ front, ∃ r, OwnerReference.schema.decode u = .ok r) ∧
            w.isMap = false ∧ f = .noMember) := by
  unfold parseOwnerReferences
  rcases hget : Entries.get? m.entries "ownerReferences" with _ | v
  · simp
  · have hv : v.isJson = true := Value.hereditary_isJson.of_get? hm hget
    rcases hmembers : v.members? with _ | members
    · dsimp only
      rw [hmembers]
      constructor
      · intro h
        cases h
        exact ⟨v, rfl, .inl ⟨hmembers, rfl⟩⟩
      · rintro ⟨_, ⟨⟩, ⟨-, rfl⟩ | ⟨_, _, _, hsome, -⟩⟩
        · rfl
        · cases hmembers.symm.trans hsome
    · have hjson := Value.hereditary_isJson.of_members? hv hmembers
      dsimp only
      rw [hmembers]
      dsimp only
      rw [bind_eq_error, mapM_eq_error]
      simp only [parsePart_eq_ok]
      constructor
      · rintro (⟨front, w, back, rfl, hfront, hw⟩ | ⟨_, _, h⟩)
        · have hfault := (parsePart_eq_fault (hjson w (by simp))).mp hw
          exact ⟨v, rfl, .inr ⟨front, w, back, hmembers, hfront, hfault⟩⟩
        · cases h
      · rintro ⟨_, ⟨⟩, ⟨hnone, -⟩ | ⟨front, w, back, hsome, hfront, hw⟩⟩
        · cases hmembers.symm.trans hnone
        · obtain rfl := Option.some.inj (hmembers.symm.trans hsome)
          exact .inl ⟨front, w, back, rfl, hfront, (parsePart_eq_fault (hjson w (by simp))).mpr hw⟩

end

/-! ## Strays -/

/-- The version of a document passes its check, and these are its metadata. -/
structure Value.Headed (doc : Value) (kind : Kind) (m : Metadata) : Prop where
  version : checkVersion kind doc = .ok ()
  metadata : Metadata.parse kind doc = .ok m

/-- A member inside the specification of a document is given. -/
def Value.Specifies (doc : Value) (name : String) : Prop :=
  ∃ v, doc.at? [.key "spec", .key name] = some v ∧ v.isTrue = true

/-- A document of a kind has a value that nothing checks for, and all that is read before it is in
order. -/
inductive Value.Stray (doc : Value) : Kind → Fault → Prop
  | version {kind : Kind} {v : Value} (found : doc.at? [.key "apiVersion"] = some v)
    (given : v.isTrue = true) (stray : v.isText = false) : Stray doc kind .noMember
  | metadata {kind : Kind} {v : Value} (version : checkVersion kind doc = .ok ())
    (found : doc.at? [.key "metadata"] = some v) (stray : v.NoMap) : Stray doc kind .noMember
  /-- Also an explicit null is no list of owners. -/
  | owners {m : Metadata} {v : Value} (headed : doc.Headed .app m)
    (found : doc.at? [.key "metadata", .key "ownerReferences"] = some v)
    (stray : v.members? = none) : Stray doc .app .wrongKind
  | owner {m : Metadata} {v : Value} {front back : List Value} {w : Value}
    (headed : doc.Headed .app m)
    (found : doc.at? [.key "metadata", .key "ownerReferences"] = some v)
    (members : v.members? = some (front ++ w :: back))
    (read : ∀ u ∈ front, ∃ r, OwnerReference.schema.decode u = .ok r)
    (stray : w.isMap = false) : Stray doc .app .noMember
  | spec {kind : Kind} {m : Metadata} {v : Value} (headed : doc.Headed kind m)
    (owned : kind = .app → ∃ owners, parseOwnerReferences m = .ok owners)
    (found : doc.at? [.key "spec"] = some v) (stray : v.NoMap) : Stray doc kind .noMember
  | template {m : Metadata} {v : Value} (headed : doc.Headed .package m)
    (refName : doc.Specifies "refName") (version : doc.Specifies "version")
    (found : doc.at? [.key "spec", .key "template"] = some v) (stray : v.NoMap) :
    Stray doc .package .noMember
  | templateSpec {m : Metadata} {v : Value} (headed : doc.Headed .package m)
    (refName : doc.Specifies "refName") (version : doc.Specifies "version")
    (found : doc.at? [.key "spec", .key "template", .key "spec"] = some v) (stray : v.NoMap) :
    Stray doc .package .noMember

section

variable {doc : Value} {f : Fault}

/-- A document of a kind comes to grief at its head, or what is read after that does. -/
theorem headed_eq_fault (hmap : doc.isMap = true) {α : Type} {kind : Kind}
    {next : Metadata → Except Error α} :
    (do checkVersion kind doc; next (← Metadata.parse kind doc)) = .error (.fault f) ↔
      (f = .noMember ∧ ∃ v, doc.at? [.key "apiVersion"] = some v ∧ v.isTrue = true ∧
        v.isText = false) ∨
      (f = .noMember ∧ checkVersion kind doc = .ok () ∧
        ∃ v, doc.at? [.key "metadata"] = some v ∧ v.NoMap) ∨
      ∃ m, doc.Headed kind m ∧ next m = .error (.fault f) := by
  rw [bind_eq_error, checkVersion_eq_fault hmap]
  refine or_congr_right ⟨?_, ?_⟩
  · rintro ⟨_, hversion, h⟩
    rcases bind_eq_error.mp h with h | ⟨m, hm, h⟩
    · obtain ⟨rfl, hstray⟩ := (Metadata.parse_eq_fault hmap).mp h
      exact .inl ⟨rfl, hversion, hstray⟩
    · exact .inr ⟨m, ⟨hversion, hm⟩, h⟩
  · rintro (⟨rfl, hversion, hstray⟩ | ⟨m, hm, h⟩)
    · exact ⟨(), hversion, bind_eq_error.mpr (.inl ((Metadata.parse_eq_fault hmap).mpr
        ⟨rfl, hstray⟩))⟩
    · exact ⟨(), hm.version, bind_eq_error.mpr (.inr ⟨m, hm.metadata, h⟩)⟩

/-- A part that may be missing comes to grief over what it is looked up in, or over what it is. -/
theorem partOf_eq_fault {α β : Type} {v : Value} (hv : v.isJson = true) {name : String}
    {s : Schema α} {owner : String} {next : α → Except Error β}
    (hnext : ∀ x, next x ≠ .error (.fault f)) :
    (do next (← parsePart s owner ((← v.member name).orElse .emptyMap))) = .error (.fault f) ↔
      f = .noMember ∧ (v.isMap = false ∨ ∃ w, v.at? [.key name] = some w ∧ w.NoMap) := by
  have hpart {w : Value} (hw : v.member name = .ok w) :
      parsePart s owner (w.orElse .emptyMap) = .error (.fault f) ↔ w.NoMap ∧ f = .noMember := by
    have hgood := Value.hereditary_isJson.of_orElse (Value.hereditary_isJson.of_member hv hw)
    rw [parsePart_eq_fault hgood, Value.noMap_orElse]
  rw [bind_eq_error, Value.member_eq_fault]
  constructor
  · rintro (⟨hmap, rfl⟩ | ⟨w, hw, h⟩)
    · exact ⟨rfl, .inl hmap⟩
    · rcases bind_eq_error.mp h with h | ⟨x, _, h⟩
      · obtain ⟨hstray, rfl⟩ := (hpart hw).mp h
        exact ⟨rfl, .inr ⟨w, (Value.member_iff_at? hstray.1).mp hw, hstray⟩⟩
      · exact absurd h (hnext x)
  · rintro ⟨rfl, hmap | ⟨w, hplace, hstray⟩⟩
    · exact .inl ⟨hmap, rfl⟩
    · have hw := (Value.member_iff_at? hstray.1).mpr hplace
      exact .inr ⟨w, hw, bind_eq_error.mpr (.inl ((hpart hw).mpr ⟨hstray, rfl⟩))⟩

/-- The specification of a package, then its name and its version, then its template. -/
theorem specified_eq_fault (hmap : doc.isMap = true) {α : Type} {e e' e'' : InputError}
    {next : Value → Value → Value → Except Error α} :
    (do
      let spec ← (← doc.member "spec").given e
      let refName ← (← spec.member "refName").given e'
      let version ← (← spec.member "version").given e''
      next refName version (← spec.member "template")) = .error (.fault f) ↔
    (f = .noMember ∧ ∃ spec, doc.at? [.key "spec"] = some spec ∧ spec.NoMap) ∨
      ∃ spec refName version template, doc.at? [.key "spec"] = some spec ∧
        spec.at? [.key "refName"] = some refName ∧ refName.isTrue = true ∧
        spec.at? [.key "version"] = some version ∧ version.isTrue = true ∧
        spec.member "template" = .ok template ∧
        next refName version template = .error (.fault f) := by
  rw [Value.needed_eq_fault, hmap]
  constructor
  · rintro (⟨hnone, -⟩ | ⟨spec, hspec, hgiven, h⟩)
    · cases hnone
    · rcases Value.needed_eq_fault.mp h with ⟨hnone, rfl⟩ | ⟨refName, hrefName, hrefGiven, h⟩
      · exact .inl ⟨rfl, spec, hspec, hgiven, hnone⟩
      rcases Value.needed_eq_fault.mp h with ⟨hnone, rfl⟩ | ⟨version, hversion, hversionGiven, h⟩
      · exact .inl ⟨rfl, spec, hspec, hgiven, hnone⟩
      rcases bind_eq_error.mp h with h | ⟨template, htemplate, h⟩
      · obtain ⟨hnone, rfl⟩ := Value.member_eq_fault.mp h
        exact .inl ⟨rfl, spec, hspec, hgiven, hnone⟩
      · exact .inr ⟨spec, refName, version, template, hspec, hrefName, hrefGiven, hversion,
          hversionGiven, htemplate, h⟩
  · rintro (⟨rfl, spec, hspec, hgiven, hnone⟩ | ⟨spec, refName, version, template, hspec, hrefName,
      hrefGiven, hversion, hversionGiven, htemplate, h⟩)
    · exact .inr ⟨spec, hspec, hgiven, Value.needed_eq_fault.mpr (.inl ⟨hnone, rfl⟩)⟩
    · refine .inr ⟨spec, hspec, Value.isTrue_of_at? hrefName, Value.needed_eq_fault.mpr (.inr
        ⟨refName, hrefName, hrefGiven, Value.needed_eq_fault.mpr (.inr
          ⟨version, hversion, hversionGiven, ?_⟩)⟩)⟩
      exact bind_eq_error.mpr (.inr ⟨template, htemplate, h⟩)

variable (hmap : doc.isMap = true) (hjson : doc.isJson = true)
include hmap hjson

theorem PackageInstall.parse_eq_fault :
    PackageInstall.parse doc = .error (.fault f) ↔ doc.Stray .packageInstall f := by
  have hread {x : PackageInstall} : (pure x : Except Error PackageInstall) ≠ .error (.fault f) :=
    nofun
  unfold PackageInstall.parse
  rw [headed_eq_fault hmap]
  constructor
  · rintro (⟨rfl, v, hplace, htrue, htext⟩ | ⟨rfl, hversion, v, hplace, hstray⟩ | ⟨m, hm, h⟩)
    · exact .version hplace htrue htext
    · exact .metadata hversion hplace hstray
    · obtain ⟨rfl, hnone | ⟨v, hplace, hstray⟩⟩ := (partOf_eq_fault hjson fun _ => hread).mp h
      · cases hmap.symm.trans hnone
      · exact .spec hm nofun hplace hstray
  · intro h
    cases h with
    | version found given stray => exact .inl ⟨rfl, _, found, given, stray⟩
    | metadata version found stray => exact .inr (.inl ⟨rfl, version, _, found, stray⟩)
    | spec headed _ found stray =>
      exact .inr (.inr ⟨_, headed, (partOf_eq_fault hjson fun _ => hread).mpr
        ⟨rfl, .inr ⟨_, found, stray⟩⟩⟩)

theorem App.parse_eq_fault : App.parse doc = .error (.fault f) ↔ doc.Stray .app f := by
  have hstatus {g : Value → App} :
      (do return g (← doc.member "status")) ≠ (.error (.fault f) : Except Error App) := by
    intro h
    rcases bind_eq_error.mp h with h | ⟨_, _, h⟩
    · cases hmap.symm.trans (Value.member_eq_fault.mp h).1
    · cases h
  have howners {m : Metadata} (hm : doc.Headed .app m) :
      parseOwnerReferences m = .error (.fault f) ↔
        ∃ v, doc.at? [.key "metadata", .key "ownerReferences"] = some v ∧
          ((v.members? = none ∧ f = .wrongKind) ∨
            ∃ front w back, v.members? = some (front ++ w :: back) ∧
              (∀ u ∈ front, ∃ r, OwnerReference.schema.decode u = .ok r) ∧
              w.isMap = false ∧ f = .noMember) := by
    obtain ⟨⟨origin, hentries⟩, -⟩ :=
      Metadata.good_of_parse Value.hereditary_isJson hjson hm.metadata
    rw [parseOwnerReferences_eq_fault hentries, Metadata.at?_of_parse hm.metadata]
  unfold App.parse
  rw [headed_eq_fault hmap]
  constructor
  · rintro (⟨rfl, v, hplace, htrue, htext⟩ | ⟨rfl, hversion, v, hplace, hstray⟩ | ⟨m, hm, h⟩)
    · exact .version hplace htrue htext
    · exact .metadata hversion hplace hstray
    · rcases bind_eq_error.mp h with h | ⟨owners, hok, h⟩
      · obtain ⟨v, hplace, ⟨hnone, rfl⟩ | ⟨front, w, back, hmembers, hfront, hstray, rfl⟩⟩ :=
          (howners hm).mp h
        · exact .owners hm hplace hnone
        · exact .owner hm hplace hmembers hfront hstray
      · obtain ⟨rfl, hnone | ⟨v, hplace, hstray⟩⟩ := (partOf_eq_fault hjson fun _ => hstatus).mp h
        · cases hmap.symm.trans hnone
        · exact .spec hm (fun _ => ⟨owners, hok⟩) hplace hstray
  · intro h
    cases h with
    | version found given stray => exact .inl ⟨rfl, _, found, given, stray⟩
    | metadata version found stray => exact .inr (.inl ⟨rfl, version, _, found, stray⟩)
    | owners headed found stray =>
      refine .inr (.inr ⟨_, headed, bind_eq_error.mpr (.inl ?_)⟩)
      exact (howners headed).mpr ⟨_, found, .inl ⟨stray, rfl⟩⟩
    | owner headed found members read stray =>
      refine .inr (.inr ⟨_, headed, bind_eq_error.mpr (.inl ?_)⟩)
      exact (howners headed).mpr ⟨_, found, .inr ⟨_, _, _, members, read, stray, rfl⟩⟩
    | spec headed owned found stray =>
      obtain ⟨owners, hok⟩ := owned rfl
      refine .inr (.inr ⟨_, headed, bind_eq_error.mpr (.inr ⟨owners, hok, ?_⟩)⟩)
      exact (partOf_eq_fault hjson fun _ => hstatus).mpr ⟨rfl, .inr ⟨_, found, stray⟩⟩

theorem Package.parse_eq_fault :
    Package.parse doc = .error (.fault f) ↔ doc.Stray .package f := by
  have hread {x : Package} : (pure x : Except Error Package) ≠ .error (.fault f) := nofun
  have hpart {spec template : Value} (hspec : doc.at? [.key "spec"] = some spec)
      (htemplate : spec.member "template" = .ok template) :
      (template.orElse .emptyMap).isJson = true :=
    Value.hereditary_isJson.of_orElse
      (Value.hereditary_isJson.of_member (Value.isJson_at hjson hspec) htemplate)
  unfold Package.parse
  rw [headed_eq_fault hmap]
  constructor
  · rintro (⟨rfl, v, hplace, htrue, htext⟩ | ⟨rfl, hversion, v, hplace, hstray⟩ | ⟨m, hm, h⟩)
    · exact .version hplace htrue htext
    · exact .metadata hversion hplace hstray
    · rcases (specified_eq_fault hmap).mp h with ⟨rfl, spec, hspec, hstray⟩ |
        ⟨spec, refName, version, template, hspec, hrefName, hrefGiven, hversion, hversionGiven, htemplate, h⟩
      · exact .spec hm nofun hspec hstray
      · have hnamed : doc.Specifies "refName" :=
          ⟨refName, (Value.at?_of_at? hspec _).trans hrefName, hrefGiven⟩
        have hversioned : doc.Specifies "version" :=
          ⟨version, (Value.at?_of_at? hspec _).trans hversion, hversionGiven⟩
        obtain ⟨rfl, hnone | ⟨v, hplace, hstray⟩⟩ :=
          (partOf_eq_fault (hpart hspec htemplate) fun _ => hread).mp h
        · have hstray := Value.noMap_orElse.mp hnone
          exact .template hm hnamed hversioned ((Value.at?_of_at? hspec _).trans
            ((Value.member_iff_at? hstray.1).mp htemplate)) hstray
        · rw [Value.at?_orElse] at hplace
          have htemplate := (Value.member_iff_at? (Value.isTrue_of_at? hplace)).mp htemplate
          exact .templateSpec hm hnamed hversioned ((Value.at?_of_at? hspec _).trans
            ((Value.at?_of_at? htemplate _).trans hplace)) hstray
  · intro h
    cases h with
    | version found given stray => exact .inl ⟨rfl, _, found, given, stray⟩
    | metadata version found stray => exact .inr (.inl ⟨rfl, version, _, found, stray⟩)
    | spec headed _ found stray =>
      exact .inr (.inr ⟨_, headed, (specified_eq_fault hmap).mpr (.inl ⟨rfl, _, found, stray⟩)⟩)
    | template headed refName version found stray =>
      obtain ⟨spec, hspec, htemplate⟩ := Value.at?_cons_eq_some.mp found
      obtain ⟨r, hr, hrGiven⟩ := refName
      obtain ⟨x, hx, hxGiven⟩ := version
      have htemplate := (Value.member_iff_at? stray.1).mpr htemplate
      refine .inr (.inr ⟨_, headed, (specified_eq_fault hmap).mpr (.inr ⟨spec, r, x, _, hspec,
        (Value.at?_of_at? hspec _).symm.trans hr, hrGiven,
        (Value.at?_of_at? hspec _).symm.trans hx, hxGiven, htemplate, ?_⟩)⟩)
      exact (partOf_eq_fault (hpart hspec htemplate) fun _ => hread).mpr
        ⟨rfl, .inl (Value.noMap_orElse.mpr stray)⟩
    | templateSpec headed refName version found stray =>
      obtain ⟨spec, hspec, hinside⟩ := Value.at?_cons_eq_some.mp found
      obtain ⟨template, htemplate, hplace⟩ := Value.at?_cons_eq_some.mp hinside
      obtain ⟨r, hr, hrGiven⟩ := refName
      obtain ⟨x, hx, hxGiven⟩ := version
      have htemplate := (Value.member_iff_at? (Value.isTrue_of_at? hplace)).mpr htemplate
      refine .inr (.inr ⟨_, headed, (specified_eq_fault hmap).mpr (.inr ⟨spec, r, x, _, hspec,
        (Value.at?_of_at? hspec _).symm.trans hr, hrGiven,
        (Value.at?_of_at? hspec _).symm.trans hx, hxGiven, htemplate, ?_⟩)⟩)
      exact (partOf_eq_fault (hpart hspec htemplate) fun _ => hread).mpr
        ⟨rfl, .inr ⟨_, (Value.at?_orElse template _ _).trans hplace, stray⟩⟩

/-! ## Resources -/

omit hmap hjson in
theorem Kind.ofValue?_eq_some {v : Value} {kind : Kind} :
    Kind.ofValue? v = some kind ↔ v = .str kind.name := by
  constructor
  · intro h
    have hfound := List.find?_some h
    exact of_decide_eq_true hfound
  · rintro rfl
    cases kind <;> rfl

/-- **Reading comes to grief exactly over a stray value** of a document whose kind is known. -/
theorem Resource.parse_eq_fault : Resource.parse doc = .error (.fault f) ↔
    ∃ kind : Kind, doc.at? [.key "kind"] = some (.str kind.name) ∧ doc.Stray kind f := by
  unfold Resource.parse
  rw [Value.needed_eq_fault, hmap]
  constructor
  · rintro (⟨hnone, -⟩ | ⟨v, hplace, -, h⟩)
    · cases hnone
    · split at h
      · rename_i hkind
        rw [Kind.ofValue?_eq_some.mp hkind] at hplace
        exact ⟨_, hplace, (App.parse_eq_fault hmap hjson).mp (map_eq_error.mp h)⟩
      · rename_i hkind
        rw [Kind.ofValue?_eq_some.mp hkind] at hplace
        exact ⟨_, hplace, (PackageInstall.parse_eq_fault hmap hjson).mp (map_eq_error.mp h)⟩
      · rename_i hkind
        rw [Kind.ofValue?_eq_some.mp hkind] at hplace
        exact ⟨_, hplace, (Package.parse_eq_fault hmap hjson).mp (map_eq_error.mp h)⟩
      · cases h
  · rintro ⟨kind, hplace, hstray⟩
    refine .inr ⟨_, hplace, by cases kind <;> rfl, ?_⟩
    rw [Kind.ofValue?_eq_some.mpr rfl]
    cases kind with
    | app => exact map_eq_error.mpr ((App.parse_eq_fault hmap hjson).mpr hstray)
    | packageInstall =>
      exact map_eq_error.mpr ((PackageInstall.parse_eq_fault hmap hjson).mpr hstray)
    | package => exact map_eq_error.mpr ((Package.parse_eq_fault hmap hjson).mpr hstray)

end

end AppSynthesis
