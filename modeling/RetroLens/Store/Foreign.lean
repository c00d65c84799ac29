import RetroLens.Store.SettingsText

/-!
# Settings from elsewhere

What `loadSettings` makes of a file that the store need not have written: lines
in any order and number, with ids of presets that this catalogue may not have.
`AsNamed` says what the lines that name presets of the catalogue say; the
reader gives the first preset to a name that it does not know, so it follows
them exactly if no such name gets through (`Known`).
-/

namespace RetroLens.Store

open Text Disk RetroLens.Core

variable {lines : List Bytes} {last l v : Bytes} {s : RuntimeSettings} {recent : List Int}

/-! ## The fields after one line -/

section

variable {α β : Type} {f : α → Option β} {z : β} {xs : List α} {k : Nat}

end

/-! ## When the reader follows the names -/

end RetroLens.Store
