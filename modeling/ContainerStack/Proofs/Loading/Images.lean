import ContainerStack.Image
import ContainerStack.Proofs.Loading.Written

/-!
Images read back. A pull is written as a text and a build as an object, so what is
written for one is never loaded as the other, and all parts of a build plan are loaded as
they were written.
-/

namespace ContainerStack

open Text ContainerStack.Normal Loading

def BuildPlan.fields (plan : BuildPlan) : List (String × Option Json) := [
  ("context", some (.str plan.context)),
  ("dockerfile", plan.dockerfile.map .str),
  ("args", tableField plan.args),
  ("labels", tableField plan.labels),
  ("tag", plan.tag.map .str)]

theorem BuildPlan.toJson_eq (plan : BuildPlan) :
    plan.toJson = .obj (written plan.fields .empty) := by
  simp [toJson, written, fields, tableMember_eq, optionalMember, Table.empty]

theorem BuildPlan.fill_written (plan : BuildPlan) :
    fill withMember { context := "" } (written plan.fields .empty) = .ok plan := by
  rw [BuildPlan.fields,
    fill_field (fill_value (fun v : String => ({ context := v } : BuildPlan)) text rfl rfl),
    fill_field (fill_option (fun v => ({ context := plan.context, dockerfile := v } : BuildPlan))
      text .str rfl (fun _ => rfl) str_ne_null fun _ _ => rfl),
    fill_field (fill_table (fun v => ({ plan with args := v, labels := .empty, tag := none } :
      BuildPlan)) rfl fun _ => rfl),
    fill_field (fill_table (fun v => ({ plan with labels := v, tag := none } : BuildPlan)) rfl
      fun _ => rfl),
    fill_field (fill_option (fun v => ({ plan with tag := v } : BuildPlan)) text .str rfl
      (fun _ => rfl) str_ne_null fun _ _ => rfl)]
  rfl

theorem BuildPlan.load_toJson (plan : BuildPlan) : BuildPlan.load plan.toJson = .ok plan := by
  rw [plan.toJson_eq]
  exact bind_eq_ok_iff.mpr ⟨plan, plan.fill_written, bind_eq_ok_iff.mpr ⟨(), rfl, rfl⟩⟩

theorem ImageSource.load_toJson (source : ImageSource) :
    ImageSource.load source.toJson = .ok source := by
  cases source with
  | pull reference => rfl
  | build plan =>
    have hload := plan.load_toJson
    rw [BuildPlan.toJson] at hload
    simp only [toJson, BuildPlan.toJson, load, hload]

theorem Image.load_toJson (image : Image) : Image.load image.toJson = .ok image := by
  have hfill : fill withMember ⟨"", .pull ""⟩
      [("serviceName", .str image.service), ("image", image.source.toJson)] = .ok image :=
    fill_value (fun v => ({ image with source := v } : Image)) ImageSource.load rfl
      image.source.load_toJson
  exact bind_eq_ok_iff.mpr ⟨image, hfill, rfl⟩

/-- Images are loaded as they were written, pulls as pulls and builds with all their parts. -/
theorem loadImages_imagesToJson (images : List Image) :
    loadImages (imagesToJson images) = .ok images :=
  bind_eq_ok_iff.mpr ⟨_, rfl, mapM_map_eq_ok fun image _ => image.load_toJson⟩

end ContainerStack
