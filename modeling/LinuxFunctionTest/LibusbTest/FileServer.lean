import LinuxFunctionTest.Library.Paths

/-!
# The files that are served

`rawbulk_server` puts the requested name behind `/mnt/firmware/`, in a buffer of 64 bytes, and opens the file of
this path. It neither looks at the components of the name nor notices that the buffer was too short for it.
-/

namespace LinuxFunctionTest.LibusbTest

open Paths

/-- `"/mnt/firmware/"`. -/
def firmwareRoot : List UInt8 := [47, 109, 110, 116, 47, 102, 105, 114, 109, 119, 97, 114, 101, 47]

/-- `"mnt"`. -/
def mntName : List UInt8 := [109, 110, 116]

/-- `"firmware"`. -/
def firmwareName : List UInt8 := [102, 105, 114, 109, 119, 97, 114, 101]

/-- The name in a request ends at its first zero. -/
def requestedName (request : List UInt8) : List UInt8 := request.takeWhile (· ≠ 0)

/-- `snprintf(file_name_path, 63, "/mnt/firmware/%s", buffer)`: there is room for 62 characters and a zero. -/
def fileNamePath (request : List UInt8) : List UInt8 := (firmwareRoot ++ requestedName request).take 62

/-- The path that the server opens for what it has read; `access` says of which files it may read. -/
def openedPath (access : List UInt8 → Bool) (request : List UInt8) : Option (List UInt8) :=
  if request = [] then none
  else if access (fileNamePath request) then some (fileNamePath request)
  else none

/-- What a component of a path does. -/
def componentMove (component : List UInt8) : Move (List UInt8) :=
  if component = [] ∨ component = [46] then .stay
  else if component = [46, 46] then .up
  else .enter component

/-- The components of a path. -/
def pathMoves (path : List UInt8) : List (Move (List UInt8)) := (path.splitOnP (· = 47)).map componentMove

/-- `/mnt/firmware`. -/
def firmwareDirectory : List (List UInt8) := [mntName, firmwareName]

/-- What the server opens is the requested file, below its root. -/
def ServesRequested (access : List UInt8 → Bool) (request : List UInt8) : Prop :=
  ∀ path, openedPath access request = some path →
    path = firmwareRoot ++ requestedName request ∧ Below firmwareDirectory (resolve [] (pathMoves path))

/-- A name leads below the root: it descends and does not climb out, or it climbs out and comes back. -/
def LeadsBelow (name : Relative (List UInt8)) : Prop :=
  match name.climbs with
  | 0 => name.descends ≠ []
  | 1 => Below [firmwareName] name.descends
  | _ + 2 => Below firmwareDirectory name.descends

/-- There is nothing to open, or the requested name fits the buffer and leads below the root. -/
def NothingOrInside (access : List UInt8 → Bool) (request : List UInt8) : Prop :=
  request = [] ∨ access (fileNamePath request) = false ∨
    ((requestedName request).length ≤ 48 ∧ LeadsBelow (normalForm (pathMoves (requestedName request))))

/-- A path in the root leads where its name leads from the root. -/
theorem resolve_firmwareRoot (name : List UInt8) :
    resolve [] (pathMoves (firmwareRoot ++ name)) = (normalForm (pathMoves name)).from firmwareDirectory := by
  have hroot : firmwareRoot ++ name =
      [47, 109, 110, 116, 47, 102, 105, 114, 109, 119, 97, 114, 101] ++ 47 :: name := rfl
  have hmoves : pathMoves (firmwareRoot ++ name) =
      [.stay, .enter mntName, .enter firmwareName] ++ pathMoves name := by
    rw [hroot, pathMoves, List.splitOnP_append_cons _ _ (by decide), List.map_append]
    rfl
  rw [hmoves, resolve_append, resolve_eq]
  rfl

/-- A name leads below the root when its normal form says so. -/
theorem below_from_iff (name : Relative (List UInt8)) :
    Below firmwareDirectory (name.from firmwareDirectory) ↔ LeadsBelow name := by
  obtain ⟨climbs, descends⟩ := name
  match climbs with
  | 0 =>
    change Below firmwareDirectory (firmwareDirectory ++ descends) ↔ descends ≠ []
    rw [below_iff]
    constructor
    · rintro ⟨rest, hrest, heq⟩
      exact List.append_cancel_left heq ▸ hrest
    · exact fun hdescends => ⟨descends, hdescends, rfl⟩
  | 1 =>
    change Below firmwareDirectory (mntName :: descends) ↔ Below [firmwareName] descends
    rw [below_iff, below_iff]
    refine exists_congr fun rest => and_congr_right fun _ => ?_
    exact List.cons_inj_right mntName
  | climbs + 2 =>
    have hout : firmwareDirectory.length - (climbs + 2) = 0 := by simp [firmwareDirectory]
    rw [Relative.from, hout, List.take_zero, List.nil_append]
    exact Iff.rfl

/-- The path is complete when the name fits the buffer. -/
theorem fileNamePath_eq_iff (request : List UInt8) :
    fileNamePath request = firmwareRoot ++ requestedName request ↔ (requestedName request).length ≤ 48 := by
  have hlen : firmwareRoot.length = 14 := rfl
  rw [fileNamePath, List.take_eq_self_iff, List.length_append, hlen]
  omega

/-- **The files that are served.** What the server opens is the requested file, below its root, exactly when there
is nothing to open, or the name fits the buffer and leads below the root. -/
theorem servesRequested_iff (access : List UInt8 → Bool) (request : List UInt8) :
    ServesRequested access request ↔ NothingOrInside access request := by
  by_cases hempty : request = []
  · simp [ServesRequested, NothingOrInside, openedPath, hempty]
  cases haccess : access (fileNamePath request) with
  | false => simp [ServesRequested, NothingOrInside, openedPath, haccess]
  | true =>
    have hopened : openedPath access request = some (fileNamePath request) := by simp [openedPath, hempty, haccess]
    simp only [ServesRequested, NothingOrInside, hopened, hempty, haccess, Option.some.injEq, forall_eq', false_or,
      Bool.true_eq_false]
    rw [← fileNamePath_eq_iff]
    refine and_congr_right fun hcomplete => ?_
    rw [hcomplete, resolve_firmwareRoot, below_from_iff]

/-- `"../../etc/passwd"` is opened, which is outside the root. -/
theorem not_servesRequested : ¬ ∀ access request, ServesRequested access request := by
  intro h
  obtain ⟨-, hbelow⟩ := h (fun _ => true)
    [46, 46, 47, 46, 46, 47, 101, 116, 99, 47, 112, 97, 115, 115, 119, 100] _ rfl
  exact absurd hbelow.1 (by decide)

end LinuxFunctionTest.LibusbTest
