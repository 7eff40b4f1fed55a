import ContainerStack.Normal.Entity
import ContainerStack.Proofs.Normal.Check
import ContainerStack.Proofs.Normal.Field

/-!
What entities and builds must hold to be read. A reader succeeds with a result
exactly when every field of the result is read from its member and every check on
the result succeeds; one structure for each kind of entity lists these conditions.
-/

namespace ContainerStack.Normal

theorem field?_eq_some_iff {key : String} {ms : Entries Json} {x : Json} :
    field? key ms = some x ↔ Entries.get? key ms = some x ∧ x ≠ .null := by
  unfold field?
  split
  · rename_i h
    simp only [reduceCtorEq, h, Option.some.injEq, false_iff, not_and, not_not]
    exact fun heq => heq.symm
  · rename_i h
    refine ⟨fun hx => ⟨hx, ?_⟩, fun hx => hx.1⟩
    rintro rfl
    exact h hx

/-- A field that is read is absent or stands under its name. -/
theorem readField_eq_ok_iff {α : Type} {key : String} {ms : Entries Json} {absent a : α}
    {read : Json → Outcome α} :
    readField key ms absent read = .ok a ↔
      (field? key ms = none ∧ absent = a) ∨ ∃ x, field? key ms = some x ∧ read x = .ok a := by
  unfold readField
  split
  · rename_i h
    simp [h]
  · rename_i x h
    simp [h]

theorem readOption_eq_ok_iff {α : Type} {key : String} {ms : Entries Json} {o : Option α}
    {read : Json → Outcome α} :
    readOption key ms read = .ok o ↔
      (field? key ms = none ∧ o = none) ∨
        ∃ x, field? key ms = some x ∧ ∃ a, read x = .ok a ∧ o = some a := by
  simp only [readOption, readField_eq_ok_iff, map_eq_ok_iff, eq_comm (a := o)]

theorem exists_read_of_readOption {α : Type} {key : String} {ms : Entries Json} {a : α}
    {read : Json → Outcome α} (h : readOption key ms read = .ok (some a)) :
    ∃ x, field? key ms = some x ∧ read x = .ok a := by
  rcases readOption_eq_ok_iff.mp h with ⟨-, hnone⟩ | ⟨x, hx, a', hread, hsome⟩
  · contradiction
  · rw [Option.some.injEq] at hsome
    exact ⟨x, hx, hsome ▸ hread⟩

/-- The members describe the build. -/
structure BuildOf (ms : Entries Json) (b : Build) : Prop where
  context : ∃ context, optionalText "build.context" (Entries.get? "context" ms) = .ok context ∧
    b.context = context.getD "."
  dockerfile : optionalText "build.dockerfile" (Entries.get? "dockerfile" ms) = .ok b.dockerfile
  args : readField "args" ms .empty (assignments "build.args") = .ok b.args
  labels : readField "labels" ms .empty (assignments "build.labels") = .ok b.labels
  extra : b.extra = extraMembers buildFields ms

/-- The members of a service in a document that declares certain names describe
the service, and it passes the checks on it. -/
structure ServiceOf (declared : Declarations) (name : String) (ms : Entries Json)
    (s : Service) : Prop where
  image : optionalText "image" (Entries.get? "image" ms) = .ok s.image
  build : readOption "build" ms (build name) = .ok s.build
  environment : readField "environment" ms .empty (assignments "environment") = .ok s.environment
  envFiles : readOption "env_file" ms envFiles = .ok s.envFiles
  dependsOn : readField "depends_on" ms [] (dependencies name) = .ok s.dependsOn
  labels : readField "labels" ms .empty (assignments "labels") = .ok s.labels
  ports : readField "ports" ms [] ports = .ok s.ports
  volumes : readField "volumes" ms [] (texts "volumes") = .ok s.volumes
  extraHosts : readField "extra_hosts" ms [] hosts = .ok s.extraHosts
  networks : readOption "networks" ms (attachments name) = .ok s.networks
  extra : s.extra = extraMembers serviceFields ms
  dependsOn_nodup : s.dependsOn.Nodup
  dependsOn_declared : ∀ d ∈ s.dependsOn, d ∈ declared.services
  labels_named : ∀ key ∈ s.labels.keys, LabelName key
  volumes_named : ∀ entry ∈ s.volumes, NamedMount declared.volumes entry
  hasSource : s.image ≠ none ∨ s.build ≠ none

/-- The members describe the network or volume, and its labels pass their check. -/
structure ResourceOf (ms : Entries Json) (r : Resource) : Prop where
  driver : optionalText "driver" (Entries.get? "driver" ms) = .ok r.driver
  labels : readField "labels" ms .empty (assignments "labels") = .ok r.labels
  external : r.external = Entries.get? "external" ms
  extra : r.extra = extraMembers resourceFields ms
  labels_named : ∀ key ∈ r.labels.keys, LabelName key

theorem buildOfMembers_eq_ok_iff {ms : Entries Json} {b : Build} :
    buildOfMembers ms = .ok b ↔ BuildOf ms b := by
  simp only [buildOfMembers, bind_eq_ok_iff, Except.ok.injEq]
  constructor
  · intro h
    obtain ⟨context, hcontext, dockerfile, hdockerfile, args, hargs, labels, hlabels, rfl⟩ := h
    exact ⟨⟨context, hcontext, rfl⟩, hdockerfile, hargs, hlabels, rfl⟩
  · intro h
    obtain ⟨⟨context, hcontext, hdefault⟩, hdockerfile, hargs, hlabels, hextra⟩ := h
    refine ⟨context, hcontext, b.dockerfile, hdockerfile, b.args, hargs, b.labels, hlabels, ?_⟩
    rw [← hdefault, ← hextra]

/-- A build is read from its short form or from its members. -/
theorem build_eq_ok_iff {name : String} {raw : Json} {b : Build} :
    build name raw = .ok b ↔
      ((∃ context, raw = .str context ∧ b = { context }) ∨ ∃ ms, raw = .obj ms ∧ BuildOf ms b) ∧
        ∀ key ∈ b.labels.keys, LabelName key := by
  cases raw with
  | str context =>
    simp only [build, bind_eq_ok_iff, Except.ok.injEq]
    constructor
    · intro h
      obtain ⟨_, rfl, _, hlabels, rfl⟩ := h
      exact ⟨Or.inl ⟨context, rfl, rfl⟩, checkLabelKeys_eq_ok_iff.mp hlabels⟩
    · intro h
      obtain ⟨⟨_, heq, rfl⟩ | ⟨ms, heq, -⟩, hlabels⟩ := h
      · cases heq
        exact ⟨_, rfl, (), checkLabelKeys_eq_ok_iff.mpr hlabels, rfl⟩
      · cases heq
  | obj ms =>
    simp only [build, bind_eq_ok_iff, Except.ok.injEq, buildOfMembers_eq_ok_iff]
    constructor
    · intro h
      obtain ⟨_, hb, _, hlabels, rfl⟩ := h
      exact ⟨Or.inr ⟨ms, rfl, hb⟩, checkLabelKeys_eq_ok_iff.mp hlabels⟩
    · intro h
      obtain ⟨⟨_, heq, -⟩ | ⟨_, heq, hb⟩, hlabels⟩ := h
      · cases heq
      · cases heq
        exact ⟨b, hb, (), checkLabelKeys_eq_ok_iff.mpr hlabels, rfl⟩
  | null => simp [build, reject, bind, Except.bind]
  | bool _ => simp [build, reject, bind, Except.bind]
  | num _ => simp [build, reject, bind, Except.bind]
  | arr _ => simp [build, reject, bind, Except.bind]

theorem service_eq_ok_iff {declared : Declarations} {name : String} {raw : Json} {s : Service} :
    service declared name raw = .ok s ↔
      ∃ ms, entityMembers .service name raw = .ok ms ∧ ServiceOf declared name ms s := by
  simp only [service, bind_eq_ok_iff]
  constructor
  · rintro ⟨ms, hms, image, himage, build, hbuild, environment, henvironment, envFiles, henvFiles,
      dependsOn, hdependsOn, _, hdependencies, labels, hlabels, _, hkeys, ports, hports, volumes,
      hvolumes, _, hmounts, extraHosts, hhosts, networks, hnetworks, hlast⟩
    split at hlast
    · exact absurd hlast reject_ne_ok
    · rename_i hsource
      simp only [Except.ok.injEq] at hlast
      subst hlast
      obtain ⟨hnodup, hdeclared⟩ := checkDependencies_eq_ok_iff.mp hdependencies
      refine ⟨ms, hms, himage, hbuild, henvironment, henvFiles, hdependsOn, hlabels, hports,
        hvolumes, hhosts, hnetworks, rfl, hnodup, hdeclared, checkLabelKeys_eq_ok_iff.mp hkeys,
        checkMounts_eq_ok_iff.mp hmounts, ?_⟩
      simpa [imp_iff_not_or] using hsource
  · intro hparts
    obtain ⟨ms, hms, h⟩ := hparts
    refine ⟨ms, hms, s.image, h.image, s.build, h.build, s.environment, h.environment, s.envFiles,
      h.envFiles, s.dependsOn, h.dependsOn, (),
      checkDependencies_eq_ok_iff.mpr ⟨h.dependsOn_nodup, h.dependsOn_declared⟩, s.labels, h.labels,
      (), checkLabelKeys_eq_ok_iff.mpr h.labels_named, s.ports, h.ports, s.volumes, h.volumes, (),
      checkMounts_eq_ok_iff.mpr h.volumes_named, s.extraHosts, h.extraHosts, s.networks,
      h.networks, ?_⟩
    have hsource : (s.image.isNone && s.build.isNone) = false := by
      have := h.hasSource
      cases himage : s.image <;> cases hbuild : s.build <;> simp_all
    simp only [hsource, Bool.false_eq_true, ite_false, ← h.extra]

theorem resource_eq_ok_iff {kind : EntityKind} {name : String} {raw : Json} {r : Resource} :
    resource kind name raw = .ok r ↔
      ∃ ms, entityMembers kind name raw = .ok ms ∧ ResourceOf ms r := by
  simp only [resource, bind_eq_ok_iff, Except.ok.injEq]
  constructor
  · intro hparts
    obtain ⟨ms, hms, driver, hdriver, labels, hlabels, _, hkeys, rfl⟩ := hparts
    exact ⟨ms, hms, hdriver, hlabels, rfl, rfl, checkLabelKeys_eq_ok_iff.mp hkeys⟩
  · intro hparts
    obtain ⟨ms, hms, h⟩ := hparts
    refine ⟨ms, hms, r.driver, h.driver, r.labels, h.labels, (),
      checkLabelKeys_eq_ok_iff.mpr h.labels_named, ?_⟩
    rw [← h.external, ← h.extra]

end ContainerStack.Normal
