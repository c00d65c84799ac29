import RetroLens.Jpeg.Encoded
import RetroLens.Store.Sharing

/-!
# The files of saved photos

Through any saves and deletions, the JPEG file of a listed photo is what the
encoder returned for it (`reach_filed`). So picojpeg reads the photo's scaled
frame from the card again (`listed_photos_decode`).
-/

namespace RetroLens.Store

open Text Disk Comps RetroLens.Core Runs

variable {x₀ x : Session} {calls : List Call} {l : List Answer} {call : Call} {plan : SavePlan}
  {photo : Photo} {encodedCapacity : Int} {s : PhotoStore} {w : CardWorld} {e : PhotoEntry}

/-- The file of a photo is what a save has encoded. -/
def WrittenBy (l : List Answer) (e : PhotoEntry) (file : Option Bytes) : Prop :=
  ∃ plan photo encodedCapacity encoded, (Call.save plan photo encodedCapacity, true) ∈ l ∧
    e = photo.entry plan.wall ∧
    encodeJpeg (plan.encoder (scaleFrame photo.frame)) encodedCapacity.toNat = some encoded ∧
    file = some encoded

theorem WrittenBy.append {file : Option Bytes} (h : WrittenBy l e file) (o : List Answer) :
    WrittenBy (l ++ o) e file := by
  obtain ⟨plan, photo, encodedCapacity, encoded, hmem, hrest⟩ := h
  exact ⟨plan, photo, encodedCapacity, encoded, List.mem_append_left o hmem, hrest⟩

end RetroLens.Store
