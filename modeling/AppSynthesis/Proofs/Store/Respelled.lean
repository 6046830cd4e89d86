/-
AppSynthesis.Proofs.Store.Respelled — what is stored for a resource that was added.

* `Resource.content` — the document data of a resource but for its version.
* `Store.content_stamped` — a resource is written with the content that it has.
* `Resource.same_content` — resources that are the same can both be written or neither, and
  their contents are alike.
* `Store.Reached.keysDistinct` — no map has a key twice in what a store holds, if none had in
  what was added.
* `LiveStore.add_respells` — after an addition that was not refused there is a resource under
  the identity of the one that was added, with a content that is alike. It is identical when
  something was written; when an equal resource was there already, exactly when both contents
  spell all numbers in the same way.

So a document in which nothing but the spelling of a number has changed is passed over:
`LiveStore.add_respelled_ignored`.
-/
import AppSynthesis.Proofs.Schema.Respelled
import AppSynthesis.Proofs.Manifest.Parsed
import AppSynthesis.Proofs.Store.Runs

namespace AppSynthesis

open Store (Change)

/-! ## Contents -/

/-- The document data of a resource but for its version. -/
def Resource.content (obj : Resource) : Except Error Value :=
  (Record.data (.ofResource obj)).map (Value.without "resourceVersion")

theorem Value.isCollection_of_agrees {v w : Value} (h : v.agrees w = true) :
    v.isCollection = w.isCollection := by
  cases v <;> cases w <;> simp_all [agrees, same, isNaN, isCollection]

/-- Whether a resource can be written. -/
def Resource.isWritable : Resource → Bool
  | .app x => x.isWritable
  | .packageInstall x => x.annotations.isCollection
  | .package _ => true

theorem Resource.content_eq (obj : Resource) :
    obj.content = if obj.isWritable then .ok (obj.document.without "resourceVersion")
      else .error (.fault .noMember) := by
  cases obj with
  | app x =>
    show (App.data x).map _ = if x.isWritable then _ else _
    unfold App.data
    split <;> rfl
  | packageInstall x =>
    show (PackageInstall.data x).map _ = if x.annotations.isCollection then _ else _
    unfold PackageInstall.data
    split <;> rfl
  | package x => rfl

/-- A resource is written with the content that it has: the version that it is given is none
of it. -/
theorem Store.content_stamped (s : Store) (obj : Resource) :
    (s.stamped obj).content = obj.content := by
  cases obj with
  | app x =>
    have hdocument : (s.stamped (.app x)).document.without "resourceVersion" =
        (Resource.app x).document.without "resourceVersion" := by
      simp only [stamped, Resource.document, Schema.encode, App.schema, Fields.encode,
        Value.without]
      by_cases huid : x.uid = .null <;> by_cases hversion : x.resourceVersion = .null <;>
        simp [huid, hversion]
    rw [Resource.content_eq, Resource.content_eq, hdocument]
    rfl
  | packageInstall x => rfl
  | package x => rfl

theorem Resource.isWritable_of_same {a b : Resource} (h : a.same b = true) :
    a.isWritable = b.isWritable := by
  cases a <;> cases b <;> try cases h
  · rename_i x y
    have hfields : App.schema.fields.same (App.schema.row x) (App.schema.row y) = true := h
    simp only [App.schema, Fields.same, Bool.and_eq_true] at hfields
    obtain ⟨_, _, _, _, hannotations, hlabels, _, _, hstatus, _⟩ := hfields
    simp only [isWritable, App.isWritable, Value.isCollection_of_agrees hannotations,
      Value.isCollection_of_agrees hlabels, Value.isCollection_of_agrees hstatus]
  · rename_i x y
    have hfields : PackageInstall.schema.fields.same (PackageInstall.schema.row x)
      (PackageInstall.schema.row y) = true := h
    simp only [PackageInstall.schema, Fields.same, Bool.and_eq_true] at hfields
    exact Value.isCollection_of_agrees hfields.2.2.2.1
  · rfl

/-- **Resources that are the same have contents that are alike**, and can both be written or
neither. -/
theorem Resource.same_content {a b : Resource} (h : a.same b = true)
    (ha : a.document.keysDistinct = true) (hb : b.document.isJson = true) :
    (∃ e, a.content = .error e ∧ b.content = .error e) ∨
      ∃ v v', a.content = .ok v ∧ b.content = .ok v' ∧ v.Respells v' ∧ v'.isJson = true := by
  rw [content_eq, content_eq, isWritable_of_same h]
  split
  · exact .inr ⟨_, _, rfl, rfl, (respelled h ha hb).without _, Value.isJson_without _ hb⟩
  · exact .inl ⟨_, rfl, rfl⟩

/-! ## Documents without repeated keys -/

namespace Store

/-- Nothing is added but resources in whose documents no map has a key twice. -/
def Change.Distinct : Change → Prop
  | .add obj => obj.document.keysDistinct = true
  | _ => True

/-- A version gives no map a key twice. -/
theorem keysDistinct_stamped (s : Store) {obj : Resource}
    (h : obj.document.keysDistinct = true) : (s.stamped obj).document.keysDistinct = true := by
  cases obj with
  | app x =>
    obtain ⟨hname, hns, huid, _, hrest⟩ := Schema.each_distinct (s := App.schema) h
    exact Schema.good_encode Value.hereditary_keysDistinct (RecordType.regular .app)
      ⟨hname, hns, huid, fun _ => rfl, hrest⟩
  | packageInstall x => exact h
  | package x => exact h

/-- A change keeps it so. -/
theorem KeysDistinct.apply {s : Store} (hs : s.Sound) (h : s.KeysDistinct) {c : Change}
    (hc : c.Distinct) : (c.apply s).KeysDistinct := by
  cases c with
  | add obj =>
    show (s.add obj).2.KeysDistinct
    rcases add_store hs.refusals obj with hadd | ⟨_, hadd⟩ <;> rw [hadd]
    · exact h
    · intro e he
      rcases mem_place he with ⟨hwritten, _⟩ | he
      · rw [hwritten]
        exact s.keysDistinct_stamped hc
      · exact h e he
  | delete id =>
    rcases delete_cases s id with hdelete | hdelete <;> rw [hdelete]
    · exact h
    · exact fun e he => h e (List.mem_of_mem_eraseP he)
  | register event listener => exact h
  | unregister event listener => exact h

/-- **No map has a key twice in what a store holds**, if nothing else was ever added. -/
theorem Reached.keysDistinct {s : Store} (h : s.Reached Change.Distinct) : s.KeysDistinct := by
  induction h with
  | empty => exact fun _ he => absurd he List.not_mem_nil
  | change c hc hs ih => exact ih.apply hs.sound hc

end Store

/-! ## Additions -/

/-- After an addition that was not refused an equal resource is there as before, or the one that
was added. -/
theorem Store.Sound.find?_add {s : Store} (hs : s.Sound) {obj : Resource} {receipt : Receipt}
    (h : (s.add obj).1 = .ok receipt) :
    (∃ existing, existing.same obj = true ∧ receipt = .unchanged ∧
        s.find? obj.id = some existing ∧ (s.add obj).2.find? obj.id = some existing) ∨
      receipt = .stored (s.stamped obj) ∧ (s.add obj).2.find? obj.id = some (s.stamped obj) := by
  rcases s.add_cases hs.refusals obj with ⟨e, _, hadd⟩ | ⟨_, hholds, hadd⟩ | ⟨hfree, _, hadd⟩ <;>
    rw [hadd] at h ⊢ <;> cases h
  · unfold holds at hholds
    split at hholds
    · rename_i existing hfind
      exact .inl ⟨existing, hholds, rfl, hfind, hfind⟩
    · cases hholds
  · have hatomic := isAtomic_of_objection? hfree
    exact .inr ⟨rfl, hs.find?_write hatomic hatomic (ResourceId.same_self hatomic)⟩

/-- Without listeners an addition is one to the store. -/
theorem LiveStore.add_alone (call : Call) (obj : Resource) {w : LiveStore}
    (h : w.store.registrations = []) :
    w.add call obj = ((w.store.add obj).1, { w with store := (w.store.add obj).2 }) := by
  rcases LiveStore.add_cases call obj w with ⟨written, hstored, hadd⟩ | hadd
  · have hnobody : (w.store.add obj).2.listeners .added = [] := by
      rw [(Store.add_of_stored hstored).2]
      show (w.store.registrations.filter _).map _ = []
      rw [h]
      rfl
    rw [hadd, hstored]
    unfold notify
    dsimp only
    rw [hnobody]
    rfl
  · exact hadd

/-- **What is stored for a resource that was added is alike it**, and what was written is identical
to it; so is a resource that was there already exactly when no number in it is spelled in another
way. The document of the resource has to have text keys and no timestamps, as it has when it was
read from such a document (`Resource.isJson_of_parse`). -/
theorem LiveStore.add_respells {w : LiveStore} {obj : Resource} {receipt : Receipt} {call : Call}
    (hw : w.store.Reached Change.Distinct) (halone : w.store.registrations = [])
    (hobj : obj.document.isJson = true) (hadd : (w.add call obj).1 = .ok receipt) :
    ∃ stored, (w.add call obj).2.store.find? obj.id = some stored ∧
      ((∃ e, stored.content = .error e ∧ obj.content = .error e) ∨
        ∃ v v', stored.content = .ok v ∧ obj.content = .ok v' ∧ v'.isJson = true ∧
          v.Respells v' ∧ (v.Identical v' ↔ v.SpelledAlike v') ∧
          (receipt ≠ .unchanged → v.Identical v')) := by
  rw [add_alone call obj halone] at hadd ⊢
  rcases hw.sound.find?_add hadd with ⟨existing, hsame, rfl, hbefore, hafter⟩ | ⟨rfl, hafter⟩
  · obtain ⟨_, hmem, _⟩ := Store.find?_mem hbefore
    have hcontent := Resource.same_content hsame (hw.keysDistinct _ hmem) hobj
    refine ⟨existing, hafter, hcontent.imp_right ?_⟩
    rintro ⟨v, v', hv, hv', hrespells, hjson⟩
    exact ⟨v, v', hv, hv', hjson, hrespells, hrespells.identical_iff hjson, fun h => (h rfl).elim⟩
  · refine ⟨_, hafter, ?_⟩
    rw [Store.content_stamped, Resource.content_eq]
    split
    · have hjson := Value.isJson_without "resourceVersion" hobj
      have hrespells := Value.respells_self hjson
      exact .inr ⟨_, _, rfl, rfl, hjson, hrespells, hrespells.identical_iff hjson,
        fun _ _ => rfl⟩
    · exact .inl ⟨_, rfl, rfl⟩

/-- The document of a package with an option for its deployment. -/
def optionDoc (option : Value) : Value := .map none
  [(.str "apiVersion", .str "data.packaging.carvel.dev/v1alpha1"), (.str "kind", .str "Package"),
    (.str "metadata", .map none [(.str "name", .str "p1"), (.str "namespace", .str "apps")]),
    (.str "spec", .map none [(.str "refName", .str "p"), (.str "version", .str "1.0.0"),
      (.str "template", .map none [(.str "spec", .map none [(.str "deploy", .list none
        [.map none [(.str "kapp", .map none [(.str "rawOptions", option)])]])])])])]

/-- The package that is read from it. -/
def optionPackage (option : Value) : Package :=
  { name := .str "p1", ns := .str "apps", refName := .str "p", version := "1.0.0"
    template := { deploy := some [[("kapp", .map none [(.str "rawOptions", option)])]] } }

/-- The place of the option in the data of the package. -/
def optionPath : Value.Path :=
  [.key "template", .key "deploy", .item 0, .key "kapp", .key "rawOptions"]

/-- A live store that holds the package. -/
def optionStore (option : Value) : LiveStore :=
  { store := Store.given [.package (optionPackage option)] }

theorem optionStore_reached {option : Value}
    (h : (Resource.package (optionPackage option)).document.keysDistinct = true) :
    (optionStore option).store.Reached Change.Distinct :=
  Store.given_reached_of fun _ hobj => List.mem_singleton.mp hobj ▸ h

/-- A package whose option was changed from one number to another is stored as it is. -/
theorem LiveStore.add_respells_changed :
    ∃ (obj stored : Resource) (v v' : Value),
      Resource.parse (optionDoc (.int 2)) = .ok obj ∧
      (optionStore (.int 1)).store.Reached Change.Distinct ∧
      (optionStore (.int 1)).store.registrations = [] ∧ obj.document.isJson = true ∧
      ((optionStore (.int 1)).add (fun _ w => (.ok (), w)) obj).1 = .ok (.stored obj) ∧
      ((optionStore (.int 1)).add (fun _ w => (.ok (), w)) obj).2.store.find? obj.id =
        some stored ∧
      stored.content = .ok v ∧ obj.content = .ok v' ∧ v.Identical v' ∧
      v'.at? optionPath = some (.int 2) := by
  have hparse : Resource.parse (optionDoc (.int 2)) = .ok (.package (optionPackage (.int 2))) := by
    decide +kernel
  have hjson := Resource.isJson_of_parse (by decide) hparse
  have hreached : (optionStore (.int 1)).store.Reached Change.Distinct := optionStore_reached rfl
  have hadd : ((optionStore (.int 1)).add (fun _ w => (.ok (), w))
      (.package (optionPackage (.int 2)))).1 =
        .ok (.stored (.package (optionPackage (.int 2)))) := by
    decide +kernel
  obtain ⟨stored, hfind, ⟨e, _, he⟩ | ⟨v, v', hv, hv', _, _, _, hidentical⟩⟩ :=
    LiveStore.add_respells hreached rfl hjson hadd
  · cases he
  · refine ⟨_, stored, v, v', hparse, hreached, rfl, hjson, hadd, hfind, hv, hv',
      hidentical nofun, ?_⟩
    obtain rfl := Except.ok.inj hv'
    decide

/-- A package whose option has become true where it was one before is passed over: what is stored
still has the number. -/
theorem LiveStore.add_respelled_ignored :
    ∃ (before obj stored : Resource) (v v' : Value),
      (optionDoc (.int 1)).isJson = true ∧ (optionDoc (.bool true)).isJson = true ∧
      Resource.parse (optionDoc (.int 1)) = .ok before ∧
      Resource.parse (optionDoc (.bool true)) = .ok obj ∧
      (optionStore (.int 1)).store = Store.given [before] ∧
      (optionStore (.int 1)).store.Reached Change.Distinct ∧
      (optionStore (.int 1)).store.registrations = [] ∧
      ((optionStore (.int 1)).add (fun _ w => (.ok (), w)) obj).1 = .ok .unchanged ∧
      ((optionStore (.int 1)).add (fun _ w => (.ok (), w)) obj).2.store.find? obj.id =
        some stored ∧
      stored.content = .ok v ∧ obj.content = .ok v' ∧ v.at? optionPath = some (.int 1) ∧
      v'.at? optionPath = some (.bool true) ∧ ¬v.Identical v' := by
  refine ⟨.package (optionPackage (.int 1)), .package (optionPackage (.bool true)),
    .package (optionPackage (.int 1)), _, _, by decide, by decide, by decide +kernel,
    by decide +kernel, rfl, optionStore_reached rfl, rfl, by decide +kernel, by decide +kernel, rfl,
    rfl, by decide, by decide, fun h => ?_⟩
  have hoption := h optionPath
  revert hoption
  decide

end AppSynthesis
