import GhitaBrowser.Lib.Str

/-!
# Package paths in two grammars

What a relative path denotes below a directory under the rules of POSIX and under those of
Windows: which directory it starts from, how its segments are walked, and which names are no
files at all. A location is the list of the names on the way to it.
-/

namespace GhitaBrowser.PathGrammar

open List

abbrev Location := List Text

/-! ## POSIX -/

namespace Posix

/-- One segment of a walk: the empty one and `.` stay, `..` goes up. -/
def enter (location : Location) (segment : Text) : Location :=
  if segment = [] ∨ segment = ['.'] then location
  else if segment = ['.', '.'] then location.dropLast
  else location ++ [segment]

/-- The location of a path that is joined to a root; an absolute path replaces it. -/
def resolve (root : Location) (path : Text) : Location :=
  (path.splitOn '/').foldl enter (if path.head? = some '/' then [] else root)

end Posix

/-! ## Windows -/

namespace Windows

def isSeparator (c : Char) : Bool := c == '/' || c == '\\'

def upper (text : Text) : Text := text.map Char.toUpper

/-- The name in front of the first dot or colon, without the spaces at its end: a name that
the system compares with those of its devices. -/
def stem (segment : Text) : Text :=
  ((segment.takeWhile fun c => c != '.' && c != ':').reverse.dropWhile (· == ' ')).reverse

/-- The reserved names: the digits of the ports may be superscripts. -/
def deviceNames : List Text :=
  (["CON", "PRN", "AUX", "NUL", "COM1", "COM2", "COM3", "COM4", "COM5", "COM6", "COM7", "COM8",
    "COM9", "LPT1", "LPT2", "LPT3", "LPT4", "LPT5", "LPT6", "LPT7", "LPT8", "LPT9",
    "COM¹", "COM²", "COM³", "LPT¹", "LPT²", "LPT³", "CONIN$", "CONOUT$"]).map String.toList

def isDevice (segment : Text) : Bool := deviceNames.elem (upper (stem segment))

/-- The dots and spaces at the end of a name are dropped. -/
def stripped (segment : Text) : Text :=
  (segment.reverse.dropWhile fun c => c == '.' || c == ' ').reverse

/-- A colon names a drive or a stream, which is no location below the root, nor is a device. -/
def enter (location : Option Location) (segment : Text) : Option Location :=
  if segment.elem ':' || isDevice segment then none
  else if segment = [] ∨ segment = ['.'] then location
  else if segment = ['.', '.'] then location.map List.dropLast
  else if stripped segment = [] then location
  else location.map (· ++ [stripped segment])

/-- Two separators start a share or a device; one starts at the top of the root's volume. -/
def start (root : Location) (path : Text) : Option Location :=
  match path with
  | first :: second :: _ =>
    if isSeparator first && isSeparator second then none
    else if isSeparator first then some [] else some root
  | [first] => if isSeparator first then some [] else some root
  | [] => some root

/-- Every segment after one that is no location is none either. -/
def resolve (root : Location) (path : Text) : Option Location :=
  (path.splitOnP isSeparator).foldl enter (start root path)

end Windows

/-! ## Plain paths -/

/-- Names that both grammars take as they are. -/
structure Plain (segment : Text) : Prop where
  nonempty : segment ≠ []
  dot : segment.getLast? ≠ some '.'
  space : segment.getLast? ≠ some ' '
  colon : ':' ∉ segment

theorem Plain.stripped {segment : Text} (h : Plain segment) : Windows.stripped segment = segment := by
  unfold Windows.stripped
  cases hreverse : segment.reverse with
  | nil => exact absurd (reverse_eq_nil_iff.1 hreverse) h.nonempty
  | cons c rest =>
    have hlast : segment.getLast? = some c := by
      rw [getLast?_eq_head?_reverse, hreverse]
      rfl
    have hkept : ¬(c == '.' || c == ' ') = true := by
      intro hc
      rw [Bool.or_eq_true, beq_iff_eq, beq_iff_eq] at hc
      obtain rfl | rfl := hc
      · exact h.dot hlast
      · exact h.space hlast
    rw [dropWhile_cons_of_neg (p := fun c => c == '.' || c == ' ') hkept, ← hreverse,
      reverse_reverse]

theorem Plain.ne_dots {segment : Text} (h : Plain segment) :
    segment ≠ ['.'] ∧ segment ≠ ['.', '.'] :=
  ⟨by rintro rfl; exact h.dot rfl, by rintro rfl; exact h.dot rfl⟩

theorem Posix.walk_plain (location : Location) {segments : List Text}
    (h : ∀ segment ∈ segments, Plain segment) :
    segments.foldl Posix.enter location = location ++ segments := by
  induction segments generalizing location with
  | nil => exact (append_nil location).symm
  | cons segment segments ih =>
    have hplain := h segment (mem_cons_self ..)
    obtain ⟨hdot, hdots⟩ := hplain.ne_dots
    rw [foldl_cons, Posix.enter, if_neg (not_or.2 ⟨hplain.nonempty, hdot⟩), if_neg hdots,
      ih _ fun other hmem => h other (mem_cons_of_mem _ hmem), append_assoc]
    rfl

theorem Windows.walk_none (segments : List Text) : segments.foldl Windows.enter none = none := by
  induction segments with
  | nil => rfl
  | cons segment segments ih =>
    have hnone : Windows.enter none segment = none := by
      unfold Windows.enter
      repeat' split
      all_goals rfl
    rw [foldl_cons, hnone, ih]

theorem Windows.walk_plain (location : Location) {segments : List Text}
    (h : ∀ segment ∈ segments, Plain segment) :
    segments.foldl Windows.enter (some location) =
      if ∃ segment ∈ segments, Windows.isDevice segment = true then none
      else some (location ++ segments) := by
  induction segments generalizing location with
  | nil => simp
  | cons segment segments ih =>
    have hplain := h segment (mem_cons_self ..)
    obtain ⟨hdot, hdots⟩ := hplain.ne_dots
    have hcolon : segment.elem ':' = false := by
      rw [Bool.eq_false_iff, ne_eq, elem_iff]
      exact hplain.colon
    have ih := @ih
    rw [foldl_cons, Windows.enter, hcolon, Bool.false_or]
    by_cases hdevice : Windows.isDevice segment = true
    · rw [if_pos hdevice, Windows.walk_none,
        if_pos ⟨segment, mem_cons_self .., hdevice⟩]
    · rw [if_neg hdevice, if_neg (not_or.2 ⟨hplain.nonempty, hdot⟩), if_neg hdots, hplain.stripped,
        if_neg hplain.nonempty, Option.map_some,
        ih _ fun other hmem => h other (mem_cons_of_mem _ hmem)]
      simp [hdevice]

end GhitaBrowser.PathGrammar

/-!
## Package paths

`validate_package_path` and where the paths that it accepts lead. The path parser of the host
has nothing left to refuse behind the checks of the segments.
-/

namespace GhitaBrowser.Packages

open List
open GhitaBrowser.PathGrammar

def maxPackagePathBytes : Nat := 512

inductive PackageCryptoError where
  | unsafePath (path : Text)
deriving DecidableEq

def reservedBasenames : List Text :=
  ["CON", "PRN", "AUX", "NUL", "COM1", "COM2", "COM3", "COM4", "COM5", "COM6", "COM7", "COM8",
    "COM9", "LPT1", "LPT2", "LPT3", "LPT4", "LPT5", "LPT6", "LPT7", "LPT8", "LPT9"].map String.toList

def isReservedBasename (segment : Text) : Bool :=
  reservedBasenames.elem (Windows.upper ((segment.splitOn '.').headD []))

/-! ## `std::path` -/

inductive Host where
  | posix
  | windows
deriving DecidableEq

inductive Component where
  | volume
  | rootDir
  | curDir
  | parentDir
  | normal (part : Text)
deriving DecidableEq

def Host.isSeparator : Host → Char → Bool
  | posix, c => c == '/'
  | windows, c => Windows.isSeparator c

/-- The path starts with a drive letter, or with two separators as shares and devices do. -/
def Host.hasVolume : Host → Text → Bool
  | windows, first :: second :: _ =>
    first.isAlpha && second == ':' || Windows.isSeparator first && Windows.isSeparator second
  | _, _ => false

def Host.hasRoot (host : Host) (path : Text) : Bool := path.head?.any host.isSeparator

/-- `Path::is_absolute`: on Windows a drive needs a separator behind it. -/
def Host.isAbsolute : Host → Text → Bool
  | posix, path => posix.hasRoot path
  | windows, path =>
    windows.hasVolume path && (windows.hasRoot path || windows.hasRoot (path.drop 2))

def component (leading : Bool) (segment : Text) : Option Component :=
  if segment.isEmpty then none
  else if segment == ['.'] then if leading then some .curDir else none
  else if segment == ['.', '.'] then some .parentDir
  else some (.normal segment)

def Host.components (host : Host) (path : Text) : List Component :=
  let segments := path.splitOnP host.isSeparator
  (if host.hasVolume path then [.volume] else []) ++
    (if host.hasRoot path then [.rootDir] else []) ++
    (segments.head?.bind (component (!host.hasRoot path))).toList ++
    segments.tail.filterMap (component false)

def Component.isNormal : Component → Bool
  | normal part => !part.isEmpty
  | _ => false

/-! ## The validator -/

def refusedSegment (segment : Text) : Bool :=
  segment == ['.'] || segment == ['.', '.'] || Str.endsWith ['.'] segment ||
    Str.endsWith [' '] segment || isReservedBasename segment

def validatePackagePath (host : Host) (path : Text) : Except PackageCryptoError Unit :=
  if path.isEmpty || maxPackagePathBytes < byteLen path then .error (.unsafePath path)
  else if path.elem '\\' || path.elem ':' || path.elem '\x00' then .error (.unsafePath path)
  else if (path.splitOn '/').any (·.isEmpty) then .error (.unsafePath path)
  else if (path.splitOn '/').any refusedSegment then .error (.unsafePath path)
  else if host.isAbsolute path then .error (.unsafePath path)
  else if !(host.components path).all (·.isNormal) then .error (.unsafePath path)
  else if (host.components path).isEmpty then .error (.unsafePath path)
  else .ok ()

/-! ## What is accepted -/

/-- The checks that look at the text alone. -/
structure Accepted (path : Text) : Prop where
  short : byteLen path ≤ maxPackagePathBytes
  backslash : '\\' ∉ path
  colon : ':' ∉ path
  zero : '\x00' ∉ path
  plain : ∀ segment ∈ path.splitOn '/', Plain segment
  reserved : ∀ segment ∈ path.splitOn '/', isReservedBasename segment = false

theorem endsWith_singleton (c : Char) (text : Text) :
    Str.endsWith [c] text = true ↔ text.getLast? = some c := by
  rw [Str.endsWith, isSuffixOf_iff_suffix, getLast?_eq_some_iff]
  exact ⟨fun ⟨before, h⟩ => ⟨before, h.symm⟩, fun ⟨before, h⟩ => ⟨before, h.symm⟩⟩

variable {segment : Text}

theorem mem_of_mem_splitOn {c d : Char} {path : Text} (hmem : segment ∈ path.splitOn d)
    (hc : c ∈ segment) : c ∈ path := by
  induction path generalizing segment with
  | nil => rwa [mem_singleton.1 hmem] at hc
  | cons first rest ih =>
    rw [splitOn_cons_eq_if_modifyHead] at hmem
    split at hmem
    · obtain rfl | hmem := mem_cons.1 hmem
      · cases hc
      · exact mem_cons_of_mem _ (ih hmem hc)
    · cases hsplit : rest.splitOn d with
      | nil => exact absurd hsplit (splitOn_ne_nil d rest)
      | cons head tail =>
        rw [hsplit] at hmem ih
        obtain rfl | hmem := mem_cons.1 hmem
        · obtain rfl | hc := mem_cons.1 hc
          · exact mem_cons_self ..
          · exact mem_cons_of_mem _ (ih (mem_cons_self ..) hc)
        · exact mem_cons_of_mem _ (ih (mem_cons_of_mem _ hmem) hc)

theorem isSeparator_eq {c : Char} (h : c ≠ '\\') (host : Host) : host.isSeparator c = (c == '/') := by
  cases host with
  | posix => rfl
  | windows => simp [Host.isSeparator, Windows.isSeparator, h]

theorem splitOnP_slash {path : Text} (h : '\\' ∉ path) (host : Host) :
    path.splitOnP host.isSeparator = path.splitOn '/' := by
  induction path with
  | nil => rfl
  | cons c rest ih =>
    have hc : c ≠ '\\' := fun hc => h (hc ▸ mem_cons_self ..)
    rw [splitOnP_cons_eq_if_modifyHead, splitOn_cons_eq_if_modifyHead, isSeparator_eq hc,
      ih fun hmem => h (mem_cons_of_mem _ hmem)]

namespace Accepted

variable {path : Text}

theorem head_ne (h : Accepted path) : path.head? ≠ some '/' := by
  intro hhead
  obtain ⟨rest, rfl⟩ := List.head?_eq_some_iff.1 hhead
  refine (h.plain [] ?_).nonempty rfl
  rw [splitOn_cons_eq_if_modifyHead, if_pos (by decide)]
  exact mem_cons_self ..

theorem hasRoot (h : Accepted path) (host : Host) : host.hasRoot path = false := by
  unfold Host.hasRoot
  cases hhead : path.head? with
  | none => rfl
  | some c =>
    have hc : c ≠ '\\' := by
      rintro rfl
      exact h.backslash (mem_of_mem_head? hhead)
    have hslash : c ≠ '/' := by
      rintro rfl
      exact h.head_ne hhead
    rw [Option.any_some, isSeparator_eq hc]
    simpa using hslash

theorem hasVolume (h : Accepted path) (host : Host) : host.hasVolume path = false := by
  unfold Host.hasVolume
  split
  · next first second rest =>
    have hcolon : second ≠ ':' := by
      rintro rfl
      exact h.colon (by simp)
    have hroot : Windows.isSeparator first = false := h.hasRoot .windows
    simp [hcolon, hroot]
  · rfl

theorem component_eq (h : Plain segment) (leading : Bool) :
    component leading segment = some (.normal segment) := by
  obtain ⟨hdot, hdots⟩ := h.ne_dots
  simp [component, h.nonempty, hdot, hdots]

theorem components_eq (h : Accepted path) (host : Host) :
    host.components path = (path.splitOn '/').map .normal := by
  have hplain := h.plain
  unfold Host.components
  rw [splitOnP_slash h.backslash, h.hasVolume, h.hasRoot]
  cases hsegments : path.splitOn '/' with
  | nil => exact absurd hsegments (splitOn_ne_nil _ _)
  | cons segment segments =>
    rw [hsegments] at hplain
    have hrest : segments.filterMap (component false) = segments.map .normal := by
      rw [← filterMap_eq_map]
      refine filterMap_congr fun other hmem => ?_
      exact component_eq (hplain other (mem_cons_of_mem _ hmem)) false
    simp only [List.head?_cons, tail_cons, Option.bind_some,
      component_eq (hplain segment (mem_cons_self ..)), hrest]
    rfl

end Accepted

theorem refusedSegment_iff (hempty : segment ≠ []) (hcolon : ':' ∉ segment) :
    refusedSegment segment = false ↔ Plain segment ∧ isReservedBasename segment = false := by
  unfold refusedSegment
  simp only [Bool.or_eq_false_iff, beq_eq_false_iff_ne, Bool.eq_false_iff (b := Str.endsWith _ _),
    ne_eq, endsWith_singleton]
  constructor
  · rintro ⟨⟨⟨⟨-, -⟩, hdot⟩, hspace⟩, hreserved⟩
    exact ⟨⟨hempty, hdot, hspace, hcolon⟩, hreserved⟩
  · rintro ⟨hplain, hreserved⟩
    exact ⟨⟨⟨hplain.ne_dots, hplain.dot⟩, hplain.space⟩, hreserved⟩

theorem validatePackagePath_iff (host : Host) (path : Text) :
    validatePackagePath host path = .ok () ↔ Accepted path := by
  constructor
  · intro h
    unfold validatePackagePath at h
    split at h
    · cases h
    split at h
    · cases h
    split at h
    · cases h
    split at h
    · cases h
    next hlength hchars hempty hrefused =>
    simp only [Bool.or_eq_true, not_or, elem_iff, decide_eq_true_eq, Nat.not_lt] at hlength hchars
    simp only [any_eq_true, not_exists, not_and, List.isEmpty_iff, Bool.not_eq_true] at hempty hrefused
    have hsegment {segment : Text} (hmem : segment ∈ path.splitOn '/') :
        Plain segment ∧ isReservedBasename segment = false :=
      (refusedSegment_iff (hempty segment hmem)
        fun hcolon => hchars.1.2 (mem_of_mem_splitOn hmem hcolon)).1 (hrefused segment hmem)
    exact {
      short := hlength.2
      backslash := hchars.1.1
      colon := hchars.1.2
      zero := hchars.2
      plain := fun segment hmem => (hsegment hmem).1
      reserved := fun segment hmem => (hsegment hmem).2 }
  · intro h
    have hne : path ≠ [] := by
      rintro rfl
      exact (h.plain [] (mem_singleton_self _)).nonempty rfl
    have hempty : ((path.splitOn '/').any (·.isEmpty)) = false := by
      rw [List.any_eq_false]
      intro segment hmem
      simpa using (h.plain segment hmem).nonempty
    have hrefused : (path.splitOn '/').any refusedSegment = false := by
      rw [List.any_eq_false]
      intro segment hmem
      have hplain := h.plain segment hmem
      rw [(refusedSegment_iff hplain.nonempty hplain.colon).2 ⟨hplain, h.reserved segment hmem⟩]
      exact Bool.false_ne_true
    have habsolute : host.isAbsolute path = false := by
      cases host with
      | posix => exact h.hasRoot .posix
      | windows => rw [Host.isAbsolute, h.hasVolume, Bool.false_and]
    have hnormal : (host.components path).all (·.isNormal) = true := by
      rw [h.components_eq, all_map, all_eq_true]
      intro segment hmem
      simpa [Component.isNormal] using (h.plain segment hmem).nonempty
    have hsome : (host.components path).isEmpty = false := by
      rw [h.components_eq, isEmpty_map, isEmpty_eq_false_iff]
      exact splitOn_ne_nil _ _
    unfold validatePackagePath
    rw [if_neg (by simpa [hne] using h.short),
      if_neg (by simp [h.backslash, h.colon, h.zero]), if_neg (by rw [hempty]; exact Bool.false_ne_true),
      if_neg (by rw [hrefused]; exact Bool.false_ne_true),
      if_neg (by rw [habsolute]; exact Bool.false_ne_true), if_neg (by rw [hnormal]; decide),
      if_neg (by rw [hsome]; exact Bool.false_ne_true)]

/-! ## Where accepted paths lead -/

/-- Ports with superscript digits and the console's own names. -/
def missedNames : List Text :=
  ["COM¹", "COM²", "COM³", "LPT¹", "LPT²", "LPT³", "CONIN$", "CONOUT$"].map String.toList

/-- Names that Windows takes for a device and the validator does not: those above, and a listed
one with spaces in front of its first dot. -/
def missedDevice (segment : Text) : Bool :=
  let stem := Windows.upper (Windows.stem segment)
  missedNames.elem stem ||
    reservedBasenames.elem stem && Windows.upper ((segment.splitOn '.').headD []) != stem

theorem isDevice_eq (h : isReservedBasename segment = false) :
    Windows.isDevice segment = missedDevice segment := by
  have hnames : Windows.deviceNames = reservedBasenames ++ missedNames := rfl
  unfold isReservedBasename at h
  unfold Windows.isDevice missedDevice
  dsimp only
  rw [hnames, elem_eq_contains, elem_eq_contains, elem_eq_contains,
    contains_append, Bool.or_comm]
  congr 1
  by_cases hbase : Windows.upper ((segment.splitOn '.').headD []) = Windows.upper (Windows.stem segment)
  · rw [hbase, elem_eq_contains] at h
    rw [h, Bool.false_and]
  · rw [bne_iff_ne.2 hbase, Bool.and_true]

/-- Under both grammars, a path that is joined to a root leads to a place below it. -/
def Contained (path : Text) : Prop :=
  ∀ root, ∃ below, below ≠ [] ∧ Posix.resolve root path = root ++ below ∧
    Windows.resolve root path = some (root ++ below)

/-- Under neither grammar, another accepted path leads to the same place. -/
def Unaliased (host : Host) (path : Text) : Prop :=
  ∀ other, validatePackagePath host other = .ok () → other ≠ path → ∀ root,
    Posix.resolve root other ≠ Posix.resolve root path ∧
      ∀ location, Windows.resolve root path = some location →
        Windows.resolve root other ≠ some location

namespace Accepted

variable {path : Text}

theorem posix_eq (h : Accepted path) (root : Location) :
    Posix.resolve root path = root ++ path.splitOn '/' := by
  rw [Posix.resolve, if_neg h.head_ne, Posix.walk_plain root h.plain]

theorem start_eq (h : Accepted path) (root : Location) : Windows.start root path = some root := by
  have hroot := h.hasRoot .windows
  unfold Windows.start
  split
  · next first second rest =>
    have hfirst : Windows.isSeparator first = false := hroot
    rw [hfirst]
    rfl
  · next first =>
    have hfirst : Windows.isSeparator first = false := hroot
    rw [hfirst]
    rfl
  · rfl

theorem windows_eq (h : Accepted path) (root : Location) :
    Windows.resolve root path =
      if ∃ segment ∈ path.splitOn '/', missedDevice segment = true then none
      else some (root ++ path.splitOn '/') := by
  have hsplit : path.splitOnP Windows.isSeparator = path.splitOn '/' :=
    splitOnP_slash h.backslash .windows
  have hdevice : (∃ segment ∈ path.splitOn '/', Windows.isDevice segment = true) ↔
      ∃ segment ∈ path.splitOn '/', missedDevice segment = true :=
    exists_congr fun segment => and_congr_right fun hmem => by
      rw [isDevice_eq (h.reserved segment hmem)]
  rw [Windows.resolve, h.start_eq, hsplit, Windows.walk_plain root h.plain]
  exact if_congr hdevice rfl rfl

end Accepted

theorem splitOn_injective {left right : Text} (h : left.splitOn '/' = right.splitOn '/') :
    left = right := by
  rw [← @intercalate_splitOn _ left _ _ '/', h, intercalate_splitOn]

theorem unaliased {host : Host} {path : Text} (h : Accepted path) : Unaliased host path := by
  intro other hother hne root
  have haccepted := (validatePackagePath_iff host other).1 hother
  rw [h.posix_eq, haccepted.posix_eq]
  refine ⟨fun heq => hne (splitOn_injective (append_cancel_left heq)), fun location hpath heq => ?_⟩
  rw [h.windows_eq] at hpath
  rw [haccepted.windows_eq] at heq
  split at hpath
  · cases hpath
  split at heq
  · cases heq
  · rw [← Option.some.inj hpath] at heq
    exact hne (splitOn_injective (append_cancel_left (Option.some.inj heq)))

/-- An accepted path leads below the root, to a place of its own, exactly when it has no name of
a device that the validator misses. -/
theorem contained_iff (host : Host) (path : Text) (h : validatePackagePath host path = .ok ()) :
    (Contained path ∧ Unaliased host path) ↔
      ∀ segment ∈ path.splitOn '/', missedDevice segment = false := by
  have haccepted := (validatePackagePath_iff host path).1 h
  constructor
  · rintro ⟨hcontained, -⟩ segment hmem
    obtain ⟨below, -, -, hwindows⟩ := hcontained []
    rw [haccepted.windows_eq] at hwindows
    split at hwindows
    · cases hwindows
    · next hmissed => exact Bool.eq_false_iff.2 fun hdevice => hmissed ⟨segment, hmem, hdevice⟩
  · intro hmissed
    refine ⟨fun root => ⟨path.splitOn '/', splitOn_ne_nil _ _, haccepted.posix_eq root, ?_⟩,
      unaliased haccepted⟩
    rw [haccepted.windows_eq, if_neg]
    rintro ⟨segment, hmem, hdevice⟩
    exact absurd (hmissed segment hmem) (by rw [hdevice]; decide)

theorem contained_script :
    validatePackagePath .posix "scripts/background.js".toList = .ok () ∧
      Contained "scripts/background.js".toList ∧ Unaliased .posix "scripts/background.js".toList :=
  have hvalid : validatePackagePath .posix "scripts/background.js".toList = .ok () := by decide
  ⟨hvalid, (contained_iff .posix "scripts/background.js".toList hvalid).2 (by decide)⟩

/-- A device name with a superscript digit passes, and Windows opens the device. -/
theorem contained_fails :
    validatePackagePath .windows "data/COM¹".toList = .ok () ∧
      Windows.resolve [] "data/COM¹".toList = none ∧ ¬Contained "data/COM¹".toList := by
  have houtside : Windows.resolve [] "data/COM¹".toList = none := by decide
  refine ⟨by decide, houtside, fun hall => ?_⟩
  obtain ⟨below, -, -, hbelow⟩ := hall []
  rw [houtside] at hbelow
  cases hbelow

/-- So do the input of the console, and a name with a space in front of its extension. -/
example : ∀ path ∈ ["CONIN$".toList, "CON .txt".toList],
    validatePackagePath .windows path = .ok () ∧ Windows.resolve [] path = none := by decide

end GhitaBrowser.Packages
