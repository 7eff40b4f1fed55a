import ContainerStack.Normal.Document
import ContainerStack.Proofs.Failing
import ContainerStack.Proofs.Normal.Entity

/-!
Reading fails with faults only. A service, a network and a document fail only as the
readers of their parts and the checks on them do; the checks find faults of meaning, and
the readers of fields other faults as well. So a document in the canonical format is read
or has a fault, and no other kind of error comes out of it.
-/

namespace ContainerStack

open Text

/-- The fault concerns names, references, paths, or what a service must have. -/
inductive Fault.IsSemantic : Fault → Prop
  | missingKey (entry field : String) : IsSemantic (.missingKey entry field)
  | repeatedDependency (service dependency : String) :
      IsSemantic (.repeatedDependency service dependency)
  | undefinedDependency (service dependency : String) :
      IsSemantic (.undefinedDependency service dependency)
  | cyclicDependency (service : String) : IsSemantic (.cyclicDependency service)
  | labelName (key owner : String) : IsSemantic (.labelName key owner)
  | mountText (entry : String) : IsSemantic (.mountText entry)
  | bindMount : IsSemantic .bindMount
  | undefinedVolume (name : String) : IsSemantic (.undefinedVolume name)
  | noSource : IsSemantic .noSource
  | envPath (fault : EnvPath.Fault) : IsSemantic (.envPath fault)

/-- What normalization finds wrong is a matter of form or of meaning. -/
theorem Fault.isSemantic_iff {cause : Fault} :
    cause.IsSemantic ↔ cause.isStructural = false ∧ ∀ version, cause ≠ .notCanonical version := by
  constructor
  · intro h
    cases h <;> simp [isStructural]
  · intro h
    obtain ⟨hform, hversion⟩ := h
    cases cause with
    | notCanonical version => exact absurd rfl (hversion version)
    | _ => first | constructor | cases hform

namespace StackError

/-- The error is a fault of the document. -/
def IsFault (e : StackError) : Prop :=
  ∃ cause, e = .fault cause

/-- The error is a fault of meaning. -/
def IsSemantic (e : StackError) : Prop :=
  ∃ cause, e = .fault cause ∧ cause.IsSemantic

theorem IsSemantic.isFault {e : StackError} (h : e.IsSemantic) : e.IsFault := by
  obtain ⟨cause, he, -⟩ := h
  exact ⟨cause, he⟩

end StackError

open StackError (IsFault IsSemantic)

theorem failsOnly_reject {α : Type} (cause : Fault) :
    FailsOnly IsFault (reject cause : Outcome α) :=
  .error ⟨cause, rfl⟩

theorem semantic_reject {α : Type} {cause : Fault} (h : cause.IsSemantic) :
    FailsOnly IsSemantic (reject cause : Outcome α) :=
  .error ⟨cause, rfl, h⟩

theorem DependencyGraph.semantic_startupOrder (g : DependencyGraph) :
    FailsOnly IsSemantic g.startupOrder := by
  unfold startupOrder
  split
  · exact .ok _
  · exact semantic_reject (.cyclicDependency _)

namespace Normal

theorem failsOnly_assignmentsOfMembers (field : String) (done : Table String) (ms : Entries Json) :
    FailsOnly IsFault (assignmentsOfMembers field done ms) := by
  induction ms generalizing done with
  | nil => exact .ok done
  | cons m rest ih =>
    rw [assignmentsOfMembers]
    split
    · exact failsOnly_reject _
    · exact ih _

theorem failsOnly_assignmentsOfItems (field : String) (done : Table String) (items : List Json) :
    FailsOnly IsFault (assignmentsOfItems field done items) := by
  induction items generalizing done with
  | nil => exact .ok done
  | cons item rest ih =>
    rw [assignmentsOfItems]
    split
    · exact failsOnly_reject _
    · split
      split_ifs
      · exact failsOnly_reject _
      · exact ih _

theorem failsOnly_assignments (field : String) (x : Json) :
    FailsOnly IsFault (assignments field x) := by
  unfold assignments
  split
  · exact .ok _
  · exact failsOnly_assignmentsOfMembers field _ _
  · exact failsOnly_assignmentsOfItems field _ _
  · exact failsOnly_reject _

theorem failsOnly_hosts (x : Json) : FailsOnly IsFault (hosts x) := by
  unfold hosts
  split
  · exact .ok _
  · refine .mapM fun m _ => ?_
    unfold hostOfMember
    split
    · exact .ok _
    · exact failsOnly_reject _
  · refine .mapM fun item _ => ?_
    unfold hostOfItem
    split
    · exact .ok _
    · exact failsOnly_reject _
  · exact failsOnly_reject _

theorem failsOnly_listItems (field : String) (x : Json) :
    FailsOnly IsFault (listItems field x) := by
  unfold listItems
  split
  · exact .ok _
  · exact .ok _
  · exact failsOnly_reject _

theorem failsOnly_ports (x : Json) : FailsOnly IsFault (ports x) := by
  refine (failsOnly_listItems "ports" x).bind fun items _ => .mapM fun item _ => ?_
  unfold port
  split
  · exact .ok _
  · exact .ok _
  · exact failsOnly_reject _

theorem failsOnly_texts (field : String) (x : Json) : FailsOnly IsFault (texts field x) := by
  refine (failsOnly_listItems field x).bind fun items _ => .mapM fun item _ => ?_
  unfold textItem
  split
  · exact .ok _
  · exact failsOnly_reject _

theorem failsOnly_textOrTexts (field : String) (x : Json) :
    FailsOnly IsFault (textOrTexts field x) := by
  unfold textOrTexts
  split
  · exact .ok _
  · exact failsOnly_texts field _

theorem failsOnly_optionalText (field : String) (x : Option Json) :
    FailsOnly IsFault (optionalText field x) := by
  unfold optionalText
  split
  · exact .ok _
  · exact .ok _
  · exact .ok _
  · exact failsOnly_reject _

section

variable {α : Type} {allowed : StackError → Prop} {key : String} {ms : Entries Json}
  {read : Json → Outcome α}

/-- A field fails only as its reader does on the member that is there. -/
theorem failsOnly_readField (absent : α)
    (h : ∀ x, Entries.get? key ms = some x → FailsOnly allowed (read x)) :
    FailsOnly allowed (readField key ms absent read) := by
  unfold readField
  split
  · exact .ok _
  · rename_i x hx
    exact h x (field?_eq_some_iff.mp hx).1

theorem failsOnly_readOption (h : ∀ x, Entries.get? key ms = some x → FailsOnly allowed (read x)) :
    FailsOnly allowed (readOption key ms read) :=
  failsOnly_readField none fun x hx => (h x hx).map some

end

theorem semantic_checkLabelKeys (owner : String) (keys : List String) :
    FailsOnly IsSemantic (checkLabelKeys owner keys) := by
  unfold checkLabelKeys
  split
  · exact semantic_reject (.labelName _ _)
  · exact .ok _

theorem semantic_checkMount (volumes : List String) (entry : String) :
    FailsOnly IsSemantic (checkMount volumes entry) := by
  unfold checkMount
  split
  · exact semantic_reject (.mountText _)
  · split_ifs
    · exact semantic_reject (.mountText _)
    · exact semantic_reject .bindMount
    · exact .ok _
    · exact semantic_reject (.undefinedVolume _)

theorem semantic_checkMounts (volumes entries : List String) :
    FailsOnly IsSemantic (checkMounts volumes entries) := by
  induction entries with
  | nil => exact .ok _
  | cons entry rest ih =>
    rw [checkMounts]
    split
    · rename_i e hentry
      exact .error (semantic_checkMount volumes entry e hentry)
    · exact ih

theorem semantic_checkDependenciesAfter (service : String) (declared seen rest : List String) :
    FailsOnly IsSemantic (checkDependenciesAfter service declared seen rest) := by
  induction rest generalizing seen with
  | nil => exact .ok _
  | cons dependency rest ih =>
    rw [checkDependenciesAfter]
    split_ifs
    · exact semantic_reject (.repeatedDependency _ _)
    · exact ih _
    · exact semantic_reject (.undefinedDependency _ _)

theorem semantic_envPath (raw : String) : FailsOnly IsSemantic (envPath raw) := by
  unfold envPath
  split
  · exact .ok _
  · exact semantic_reject (.envPath _)

theorem failsOnly_entityMembers (kind : EntityKind) (name : String) (x : Json) :
    FailsOnly IsFault (entityMembers kind name x) := by
  unfold entityMembers
  split
  · exact .ok _
  · exact .ok _
  · exact failsOnly_reject _

theorem failsOnly_sectionMembers (name : String) (ms : Entries Json) :
    FailsOnly IsFault (sectionMembers name ms) := by
  unfold sectionMembers
  split
  · exact .ok _
  · exact .ok _
  · exact .ok _
  · exact failsOnly_reject _

theorem failsOnly_checkKeys (ms : Entries Json) : FailsOnly IsFault (checkKeys ms) := by
  unfold checkKeys
  split
  · exact failsOnly_reject _
  · exact .ok _

/-- The errors of the readers of a build's fields. -/
structure BuildFails (allowed : StackError → Prop) (ms : Entries Json) : Prop where
  context : FailsOnly allowed (optionalText "build.context" (Entries.get? "context" ms))
  dockerfile : FailsOnly allowed (optionalText "build.dockerfile" (Entries.get? "dockerfile" ms))
  args : FailsOnly allowed (readField "args" ms .empty (assignments "build.args"))
  labels : FailsOnly allowed (readField "labels" ms .empty (assignments "build.labels"))

/-- The errors of the readers of a service's fields. -/
structure ServiceFails (allowed : StackError → Prop) (name : String) (ms : Entries Json) :
    Prop where
  image : FailsOnly allowed (optionalText "image" (Entries.get? "image" ms))
  build : FailsOnly allowed (readOption "build" ms (build name))
  environment : FailsOnly allowed (readField "environment" ms .empty (assignments "environment"))
  envFiles : FailsOnly allowed (readOption "env_file" ms envFiles)
  dependsOn : FailsOnly allowed (readField "depends_on" ms [] (dependencies name))
  labels : FailsOnly allowed (readField "labels" ms .empty (assignments "labels"))
  ports : FailsOnly allowed (readField "ports" ms [] ports)
  volumes : FailsOnly allowed (readField "volumes" ms [] (texts "volumes"))
  extraHosts : FailsOnly allowed (readField "extra_hosts" ms [] hosts)
  networks : FailsOnly allowed (readOption "networks" ms (attachments name))

section

variable {allowed : StackError → Prop} (hsemantic : ∀ e, IsSemantic e → allowed e)
  {name : String} {ms : Entries Json} {raw : Json}
include hsemantic

theorem failsOnly_envFiles_of (h : FailsOnly allowed (textOrTexts "env_file" raw)) :
    FailsOnly allowed (envFiles raw) :=
  h.bind fun _ _ =>
    (FailsOnly.mapM fun path _ => (semantic_envPath path).mono hsemantic).bind fun _ _ => .ok _

theorem failsOnly_checkedBuild (name : String) (b : Build) :
    FailsOnly allowed (do
      checkLabelKeys ("build of " ++ owner .service name) b.labels.keys
      .ok b : Outcome Build) :=
  ((semantic_checkLabelKeys _ _).mono hsemantic).bind fun _ _ => .ok b

/-- A build that is given by its members fails as its fields do. -/
theorem BuildFails.build (h : BuildFails allowed ms) :
    FailsOnly allowed (Normal.build name (.obj ms)) := by
  refine FailsOnly.bind ?_ fun b _ => failsOnly_checkedBuild hsemantic name b
  refine h.context.bind fun context _ => h.dockerfile.bind fun dockerfile _ => ?_
  exact h.args.bind fun args _ => h.labels.bind fun labels _ => .ok _

/-- A service fails as its fields do, or for what its parts mean together. -/
theorem failsOnly_service_of (hentity : FailsOnly allowed (entityMembers .service name raw))
    (hfields : ∀ ms, entityMembers .service name raw = .ok ms → ServiceFails allowed name ms)
    (declared : Declarations) : FailsOnly allowed (service declared name raw) := by
  refine hentity.bind fun ms hms => ?_
  have h := hfields ms hms
  refine h.image.bind fun image _ => h.build.bind fun build _ => ?_
  refine h.environment.bind fun environment _ => h.envFiles.bind fun envFiles _ => ?_
  refine h.dependsOn.bind fun dependsOn _ => ?_
  refine ((semantic_checkDependenciesAfter _ _ _ _).mono hsemantic).bind fun _ _ => ?_
  refine h.labels.bind fun labels _ => ?_
  refine ((semantic_checkLabelKeys _ _).mono hsemantic).bind fun _ _ => ?_
  refine h.ports.bind fun ports _ => h.volumes.bind fun volumes _ => ?_
  refine ((semantic_checkMounts _ _).mono hsemantic).bind fun _ _ => ?_
  refine h.extraHosts.bind fun extraHosts _ => h.networks.bind fun networks _ => ?_
  split
  · exact (semantic_reject .noSource).mono hsemantic
  · exact .ok _

/-- A network or volume fails as its driver and its labels do. -/
theorem failsOnly_resource_of {kind : EntityKind}
    (hentity : FailsOnly allowed (entityMembers kind name raw))
    (hdriver : ∀ ms, entityMembers kind name raw = .ok ms →
      FailsOnly allowed (optionalText "driver" (Entries.get? "driver" ms)))
    (hlabels : ∀ ms, entityMembers kind name raw = .ok ms →
      FailsOnly allowed (readField "labels" ms .empty (assignments "labels"))) :
    FailsOnly allowed (resource kind name raw) := by
  refine hentity.bind fun ms hms => ?_
  refine (hdriver ms hms).bind fun driver _ => (hlabels ms hms).bind fun labels _ => ?_
  exact ((semantic_checkLabelKeys _ _).mono hsemantic).bind fun _ _ => .ok _

/-- A document in the canonical format fails as its sections and their entities do, or
for a cycle among its services. -/
theorem failsOnly_document_of
    (hversion : Entries.get? "version" ms = some (.str FormatVersion.canonical.tag))
    (hkeys : FailsOnly allowed (checkKeys ms))
    (hsections : ∀ name ∈ ["services", "networks", "volumes"],
      FailsOnly allowed (sectionMembers name ms))
    (hnetworks : ∀ es, sectionMembers "networks" ms = .ok es → ∀ e ∈ es,
      FailsOnly allowed (resource .network e.1 e.2))
    (hvolumes : ∀ es, sectionMembers "volumes" ms = .ok es → ∀ e ∈ es,
      FailsOnly allowed (resource .volume e.1 e.2))
    (hservices : ∀ es, sectionMembers "services" ms = .ok es → ∀ declared, ∀ e ∈ es,
      FailsOnly allowed (service declared e.1 e.2)) :
    FailsOnly allowed (document (.obj ms)) := by
  have hentities : ∀ {α : Type} {read : String → Json → Outcome α} {es : Entries Json},
      (∀ e ∈ es, FailsOnly allowed (read e.1 e.2)) → FailsOnly allowed (entities read es) :=
    fun h => (FailsOnly.traverse h).map _
  -- The version is checked before anything else, with an error that is no fault.
  have hcanonical : checkVersion ms = .ok () := if_pos hversion
  refine .bind (.ok ms) fun found hfound => ?_
  cases hfound
  refine (FailsOnly.of_eq_ok hcanonical).bind fun _ _ => hkeys.bind fun _ _ => ?_
  refine (hsections "services" (by simp)).bind fun services hs => ?_
  refine (hsections "networks" (by simp)).bind fun networks hn => ?_
  refine (hsections "volumes" (by simp)).bind fun volumes hv => ?_
  refine (hentities (hnetworks networks hn)).bind fun _ _ => ?_
  refine (hentities (hvolumes volumes hv)).bind fun _ _ => ?_
  refine (hentities (hservices services hs _)).bind fun _ _ => ?_
  exact ((DependencyGraph.semantic_startupOrder _).mono hsemantic).bind fun _ _ => .ok _

end

theorem failsOnly_build (name : String) (x : Json) : FailsOnly IsFault (build name x) := by
  cases x with
  | str context => exact failsOnly_checkedBuild (fun _ => IsSemantic.isFault) name { context }
  | obj ms =>
    exact BuildFails.build (fun _ => IsSemantic.isFault) {
      context := failsOnly_optionalText _ _
      dockerfile := failsOnly_optionalText _ _
      args := failsOnly_readField _ fun x _ => failsOnly_assignments _ x
      labels := failsOnly_readField _ fun x _ => failsOnly_assignments _ x }
  | _ => exact (failsOnly_reject _).bind fun b _ =>
      failsOnly_checkedBuild (fun _ => IsSemantic.isFault) name b

theorem failsOnly_envFiles (x : Json) : FailsOnly IsFault (envFiles x) :=
  failsOnly_envFiles_of (fun _ => IsSemantic.isFault) (failsOnly_textOrTexts _ x)

theorem failsOnly_dependencies (name : String) (x : Json) :
    FailsOnly IsFault (dependencies name x) := by
  unfold dependencies
  split
  · exact failsOnly_texts _ _
  · exact failsOnly_reject _

theorem failsOnly_attachments (name : String) (x : Json) :
    FailsOnly IsFault (attachments name x) := by
  unfold attachments
  split
  · exact (failsOnly_texts _ _).map _
  · exact .ok _
  · exact failsOnly_reject _

theorem failsOnly_service (declared : Declarations) (name : String) (x : Json) :
    FailsOnly IsFault (service declared name x) := by
  refine failsOnly_service_of (fun _ => IsSemantic.isFault) (failsOnly_entityMembers _ _ _)
    (fun ms _ => ?_) declared
  exact {
    image := failsOnly_optionalText _ _
    build := failsOnly_readOption fun x _ => failsOnly_build name x
    environment := failsOnly_readField _ fun x _ => failsOnly_assignments _ x
    envFiles := failsOnly_readOption fun x _ => failsOnly_envFiles x
    dependsOn := failsOnly_readField _ fun x _ => failsOnly_dependencies name x
    labels := failsOnly_readField _ fun x _ => failsOnly_assignments _ x
    ports := failsOnly_readField _ fun x _ => failsOnly_ports x
    volumes := failsOnly_readField _ fun x _ => failsOnly_texts _ x
    extraHosts := failsOnly_readField _ fun x _ => failsOnly_hosts x
    networks := failsOnly_readOption fun x _ => failsOnly_attachments name x }

theorem failsOnly_resource (kind : EntityKind) (name : String) (x : Json) :
    FailsOnly IsFault (resource kind name x) :=
  failsOnly_resource_of (fun _ => IsSemantic.isFault) (failsOnly_entityMembers _ _ _)
    (fun _ _ => failsOnly_optionalText _ _)
    (fun _ _ => failsOnly_readField _ fun x _ => failsOnly_assignments _ x)

/-- A document in the canonical format is read or has a fault. -/
theorem failsOnly_document {ms : Entries Json}
    (h : Entries.get? "version" ms = some (.str FormatVersion.canonical.tag)) :
    FailsOnly IsFault (document (.obj ms)) :=
  failsOnly_document_of (fun _ => IsSemantic.isFault) h (failsOnly_checkKeys ms)
    (fun name _ => failsOnly_sectionMembers name ms)
    (fun _ _ e _ => failsOnly_resource .network e.1 e.2)
    (fun _ _ e _ => failsOnly_resource .volume e.1 e.2)
    (fun _ _ declared e _ => failsOnly_service declared e.1 e.2)

end Normal

end ContainerStack
