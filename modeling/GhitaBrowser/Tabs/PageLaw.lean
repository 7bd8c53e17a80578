import GhitaBrowser.Tabs.Tab
import GhitaBrowser.Lib.History
import Mathlib.Data.List.Forall2

/-!
# Snapshots and the page under the cursor

`flattenDeep` takes a tree apart into a list and builds it up again from a stack of open
elements. A tree within the depth cap comes back as it was (`flattenDeep_eq`), and so does a
document from its snapshot (`restored_compressDom`) when serde and gzip give back what they
were given.
-/

namespace GhitaBrowser.Tabs

open Html (Element)

/-! ## The stack of open elements -/

/-- `closeTo` on a stack of two and more. -/
theorem closeTo_cons_cons (depth : Nat) (child parent : Element) (top below : Nat)
    (rest : List (Element × Nat)) :
    closeTo depth ((child, top) :: (parent, below) :: rest) =
      if top < depth then (child, top) :: (parent, below) :: rest
      else closeTo depth ((parent.addChild child, below) :: rest) := by
  rw [closeTo]

theorem closeTo_of_lt {depth top : Nat} (h : top < depth) (child : Element)
    (rest : List (Element × Nat)) :
    closeTo depth ((child, top) :: rest) = (child, top) :: rest := by
  cases rest with
  | nil => rw [closeTo, if_pos h]
  | cons parent rest => rw [closeTo_cons_cons, if_pos h]

theorem closeTo_closeTo {depth deeper : Nat} (h : depth ≤ deeper) (stack : List (Element × Nat)) :
    closeTo depth (closeTo deeper stack) = closeTo depth stack := by
  fun_induction closeTo deeper stack with
  | case1 => rfl
  | case2 => rfl
  | case3 child top hdeep =>
    rw [closeTo, closeTo, if_neg fun hlt => hdeep (Nat.lt_of_lt_of_le hlt h)]
  | case4 => rfl
  | case5 child top parent below rest hdeep ih =>
    rw [ih, closeTo_cons_cons, if_neg fun hlt => hdeep (Nat.lt_of_lt_of_le hlt h)]

/-- `closeAll` closes what is left open, wherever the closing was begun. -/
theorem closeAll_closeTo (depth : Nat) {stack : List (Element × Nat)}
    (h : closeTo depth stack ≠ []) : closeAll (closeTo depth stack) = closeAll stack := by
  fun_induction closeTo depth stack with
  | case1 => rfl
  | case2 => rfl
  | case3 => exact absurd rfl h
  | case4 => rfl
  | case5 child top parent below rest hdeep ih => rw [ih h, closeAll]

theorem rebuild_closeTo (cap : Nat) {depth : Nat} (h : depth ≤ cap) (element : Element)
    (stack : List (Element × Nat)) :
    rebuild cap (closeTo depth stack) (element, depth) = rebuild cap stack (element, depth) := by
  simp only [rebuild, Nat.min_eq_left h, closeTo_closeTo (Nat.le_refl depth)]

theorem foldl_flattenAll_closeTo (cap depth : Nat) (h : depth ≤ cap) (children : List Element)
    (stack : List (Element × Nat)) :
    closeTo depth ((flattenAll depth children).foldl (rebuild cap) (closeTo depth stack)) =
      closeTo depth ((flattenAll depth children).foldl (rebuild cap) stack) := by
  cases children with
  | nil => exact closeTo_closeTo (Nat.le_refl depth) stack
  | cons child children =>
    obtain ⟨nodeId, tag, attrs, grandchildren, text, isVoid⟩ := child
    simp only [flattenAll, flatten, List.cons_append, List.foldl_cons, rebuild_closeTo cap h]

/-! ## Trees within the cap -/

/-- No element of a tree at `depth` lies deeper than the cap. -/
def Within (cap depth : Nat) (element : Element) : Prop :=
  ∀ entry ∈ flatten depth element, entry.2 ≤ cap

def AllWithin (cap depth : Nat) (children : List Element) : Prop :=
  ∀ entry ∈ flattenAll depth children, entry.2 ≤ cap

mutual

/-- The list of a tree puts the tree on the stack, once the stack is closed to where its
children are. -/
theorem closeTo_flatten {cap depth : Nat} {element : Element} (h : Within cap depth element)
    (stack : List (Element × Nat)) :
    closeTo (depth + 1) ((flatten depth element).foldl (rebuild cap) stack) =
      (element, depth) :: closeTo depth stack := by
  match element with
  | ⟨nodeId, tag, attrs, children, text, isVoid⟩ =>
    have hcap : depth ≤ cap := h (⟨nodeId, tag, attrs, [], text, isVoid⟩, depth) (by simp [flatten])
    have hall : AllWithin cap (depth + 1) children := by
      intro entry hmem
      exact h entry (by simp [flatten, hmem])
    rw [flatten, List.foldl_cons]
    show closeTo (depth + 1) ((flattenAll (depth + 1) children).foldl (rebuild cap)
      ((_, min depth cap) :: closeTo (min depth cap) stack)) = _
    rw [Nat.min_eq_left hcap]
    exact closeTo_flattenAll hall _ _

theorem closeTo_flattenAll {cap depth : Nat} {children : List Element}
    (h : AllWithin cap (depth + 1) children) (parent : Element) (stack : List (Element × Nat)) :
    closeTo (depth + 1)
        ((flattenAll (depth + 1) children).foldl (rebuild cap) ((parent, depth) :: stack)) =
      ({ parent with children := parent.children ++ children }, depth) :: stack := by
  match children with
  | [] =>
    rw [flattenAll, List.foldl_nil, closeTo_of_lt (Nat.lt_succ_self depth), List.append_nil]
    cases parent
    rfl
  | child :: children =>
    have hchild : Within cap (depth + 1) child := by
      intro entry hmem
      exact h entry (by simp [flattenAll, hmem])
    have hrest : AllWithin cap (depth + 1) children := by
      intro entry hmem
      exact h entry (by simp [flattenAll, hmem])
    have hcap : depth + 1 ≤ cap := by
      obtain ⟨nodeId, tag, attrs, grandchildren, text, isVoid⟩ := child
      exact hchild (⟨nodeId, tag, attrs, [], text, isVoid⟩, depth + 1) (by simp [flatten])
    -- closing to where the child is closes its own children first
    have hclosed : closeTo (depth + 1)
        ((flatten (depth + 1) child).foldl (rebuild cap) ((parent, depth) :: stack)) =
          (parent.addChild child, depth) :: stack := by
      rw [← closeTo_closeTo (Nat.le_succ (depth + 1)), closeTo_flatten hchild,
        closeTo_of_lt (Nat.lt_succ_self depth), closeTo_cons_cons,
        if_neg (Nat.lt_irrefl (depth + 1)), closeTo_of_lt (Nat.lt_succ_self depth)]
    rw [flattenAll, List.foldl_append, ← foldl_flattenAll_closeTo cap (depth + 1) hcap, hclosed,
      closeTo_flattenAll hrest]
    simp [Element.addChild]

end

theorem flattenDeep_eq {cap : Nat} {root : Element} (h : Within cap 0 root) :
    flattenDeep root cap = root := by
  have hbuilt := closeTo_flatten h []
  rw [closeTo] at hbuilt
  rw [flattenDeep, ← closeAll_closeTo 1 (by rw [hbuilt]; exact List.cons_ne_nil _ _), hbuilt,
    closeAll]

/-! ## The form of a document -/

section Format

variable [SnapshotFormat]

/-- serde and gzip give back what they were given, and only gzip's output looks like gzip's. -/
structure RoundTrips : Prop where
  json : ∀ dom bytes, SnapshotFormat.toJson dom = some bytes →
    ∃ text, SnapshotFormat.fromUtf8 bytes = some text ∧ SnapshotFormat.fromJson text = some dom
  plain : ∀ dom bytes, SnapshotFormat.toJson dom = some bytes →
    gzipMagic.isPrefixOf bytes = false
  gzip : ∀ bytes compressed, SnapshotFormat.gzip bytes = some compressed →
    gzipMagic.isPrefixOf compressed = true ∧
      SnapshotFormat.gunzip compressed = SnapshotFormat.fromUtf8 bytes

/-- The caps on a snapshot leave the document alone. -/
structure Snapshotable (dom : Element) : Prop where
  within : Within maxDomDepth 0 dom
  trivial : isTrivial dom = true → dom = rootDom
  stored : isTrivial dom = false → ∃ bytes compressed, SnapshotFormat.toJson dom = some bytes ∧
    SnapshotFormat.gzip bytes = some compressed ∧ bytes.length ≤ maxSnapshotJsonBytes ∧
    ∀ text, SnapshotFormat.fromUtf8 bytes = some text →
      jsonNestingDepth text ≤ snapshotMaxJsonDepth

/-- What `wake` and `showEntry` make of a snapshot. -/
def restored (snapshot : Option Bytes) : Element := (snapshot.bind decompressDomBytes).getD rootDom

variable {dom : Element}

theorem decompressDomBytes_smallerOf (hformat : RoundTrips) (hdom : Snapshotable dom)
    {bytes compressed : Bytes} (hjson : SnapshotFormat.toJson dom = some bytes)
    (hgzip : SnapshotFormat.gzip bytes = some compressed)
    (hnesting : ∀ text, SnapshotFormat.fromUtf8 bytes = some text →
      jsonNestingDepth text ≤ snapshotMaxJsonDepth) :
    decompressDomBytes (smallerOf bytes compressed) = some dom := by
  obtain ⟨text, htext, hback⟩ := hformat.json dom bytes hjson
  obtain ⟨hmagic, hgunzip⟩ := hformat.gzip bytes compressed hgzip
  have hdom' : flattenDeep dom maxDomDepth = dom := flattenDeep_eq hdom.within
  have hshallow : ¬jsonNestingDepth text > snapshotMaxJsonDepth :=
    Nat.not_lt.mpr (hnesting text htext)
  rw [smallerOf]
  split
  · simp [decompressDomBytes, hmagic, hgunzip, htext, hshallow, hback, hdom']
  · simp [decompressDomBytes, hformat.plain dom bytes hjson, htext, hshallow, hback, hdom']

theorem restored_compressDom (hformat : RoundTrips) (hdom : Snapshotable dom) :
    restored (HistoryEntry.compressDom dom) = dom := by
  rcases htrivial : isTrivial dom with _ | _
  · obtain ⟨bytes, compressed, hjson, hgzip, hsmall, hnesting⟩ := hdom.stored htrivial
    have hstored : HistoryEntry.compressDom dom = some (smallerOf bytes compressed) := by
      simp [HistoryEntry.compressDom, htrivial, hjson, hgzip, Nat.not_lt.mpr hsmall]
    rw [hstored, restored, Option.bind_some,
      decompressDomBytes_smallerOf hformat hdom hjson hgzip hnesting, Option.getD_some]
  · rw [HistoryEntry.compressDom, if_pos htrivial, hdom.trivial htrivial]
    rfl

theorem compressDom_eq {Layout Runtime : Type} {tab : Tab Layout Runtime}
    (hdom : Snapshotable tab.dom) : tab.compressDom = HistoryEntry.compressDom tab.dom := by
  rcases htrivial : isTrivial tab.dom with _ | _
  · obtain ⟨bytes, compressed, hjson, hgzip, hsmall, -⟩ := hdom.stored htrivial
    simp [Tab.compressDom, HistoryEntry.compressDom, htrivial, hjson, hgzip,
      Nat.not_lt.mpr hsmall]
  · simp [Tab.compressDom, HistoryEntry.compressDom, htrivial]

end Format

end GhitaBrowser.Tabs

/-!
## A tab shows the page under its cursor

A tab keeps the address, the title, the document and the runtime of its page apart, and a
history of snapshots. Here the tab is run together with what the code does not record:
which load each entry of the history comes from, which page is shown, for which page the
runtime was made and which documents each page has had.

* In a run that leaves a page only without a runtime and only awake, the tab shows the page
  under its cursor, and a runtime that is attached is the page's own (`visits_faithful`).
* A load with a runtime attached keeps it, and the next pump puts the old page's document
  under the new address (`loaded_under_runtime`). `set_url` and `sleep` drop the runtime.
-/

namespace GhitaBrowser.Tabs

open List

open Html (Element)

variable {Layout Runtime : Type}

/-! ## The history -/

/-- What `pushHistory` does to a list that is kept beside the history. -/
def pushedOn {α : Type} (replaces : Bool) (pos : Nat) (kept : List α) (last : α) : List α :=
  if replaces then (kept.take (pos + 1)).dropLast ++ [last]
  else
    let grown := kept.take (pos + 1) ++ [last]
    if grown.length > maxHistoryEntries then grown.tail else grown

/-- The page takes the place of the entry under the cursor. -/
def Tab.replaces (tab : Tab Layout Runtime) (url : String) : Bool :=
  ((tab.history.take (tab.historyPos + 1)).getLast?.map (·.url)) = some url

section Pushed

variable {α β : Type} {R : α → β → Prop} {kept : List α} {beside : List β} {last : α} {other : β}

theorem pushedOn_forall₂ (h : List.Forall₂ R kept beside) (hlast : R last other)
    (replaces : Bool) (pos : Nat) :
    List.Forall₂ R (pushedOn replaces pos kept last) (pushedOn replaces pos beside other) := by
  have htaken := forall₂_take (pos + 1) h
  have happended {front : List α} {back : List β} (hfront : List.Forall₂ R front back) :
      List.Forall₂ R (front ++ [last]) (back ++ [other]) :=
    rel_append hfront (.cons hlast .nil)
  unfold pushedOn
  dsimp only
  split
  · rw [dropLast_eq_take, dropLast_eq_take, htaken.length_eq]
    exact happended (forall₂_take _ htaken)
  · rw [(happended htaken).length_eq]
    split
    · rw [← drop_one, ← drop_one]
      exact forall₂_drop _ (happended htaken)
    · exact happended htaken

theorem pushedOn_last (replaces : Bool) (pos : Nat) (kept : List α) (last : α) :
    (pushedOn replaces pos kept last)[(pushedOn replaces pos kept last).length - 1]? =
      some last := by
  rw [← getLast?_eq_getElem?]
  unfold pushedOn
  dsimp only
  generalize kept.take (pos + 1) = front
  split
  · exact getLast?_concat
  · split
    · next hlong =>
      -- the oldest page is dropped from a list of more than one
      cases front with
      | nil => exact absurd hlong (by simp [maxHistoryEntries])
      | cons oldest front => exact getLast?_concat
    · exact getLast?_concat

end Pushed

theorem pushHistory_eq (tab : Tab Layout Runtime) (entry : HistoryEntry) :
    tab.pushHistory entry =
      let history := pushedOn (tab.replaces entry.url) tab.historyPos tab.history entry
      { tab with history, historyPos := history.length - 1, layout := none } := by
  have htruncated : (if tab.historyPos + 1 < tab.history.length then
      tab.history.take (tab.historyPos + 1) else tab.history) =
        tab.history.take (tab.historyPos + 1) := by
    split
    · rfl
    · next hall => rw [take_of_length_le (Nat.not_lt.mp hall)]
  unfold Tab.pushHistory pushedOn Tab.replaces
  rw [htruncated]
  by_cases hsame : ((tab.history.take (tab.historyPos + 1)).getLast?.map (·.url)) = some entry.url
  · simp only [hsame, decide_true, if_true]
  · simp only [hsame, decide_false, if_false, Bool.false_eq_true]

/-! ## Visits -/

/-- What is done to a tab. A load that fails shows an error page. -/
inductive PageAction (Layout Runtime : Type) [PagePlatform Layout Runtime] where
  | loadHtml (url title : String) (dom : Element) (layout : Option Layout)
  | loadUrl (url title : String) (dom : Element) (layout : Option Layout)
  | failLoad (url title : String) (dom : Element)
  | initRuntime (cssRules : List (PagePlatform.Rule Layout Runtime)) (viewportWidth : Nat)
      (baseUrl : String)
  | attachRuntime (runtime : Runtime)
  | goBack
  | goForward
  | sleep (now : Int)
  | wake (now : Int)
  | pumpRuntime (elapsedMs : Nat)
  | evaluateJs (script : String)
  | dispatchEvent (target : Nat) (eventType : String)

/-- The error page that the browser shows for an address. It is not in the history. -/
def Tab.failLoad (tab : Tab Layout Runtime) (url title : String) (dom : Element) :
    Tab Layout Runtime :=
  { tab with dom, title, url, layout := none, isError := true }

/-- A tab and its pages. Every load is a page of its own, with a number. -/
structure Visit (Layout Runtime : Type) where
  tab : Tab Layout Runtime
  /-- The page of each entry of the history. -/
  pages : List Nat
  /-- The page that the tab shows. -/
  shown : Nat
  /-- The page that the attached runtime was made for. -/
  owner : Nat
  /-- The documents that each page was loaded with or its runtime produced. -/
  documents : List (Nat × Element)
  /-- The number of the next page. -/
  next : Nat

namespace Visit

/-- A load has put a new page under the cursor. -/
def loaded (visit : Visit Layout Runtime) (tab : Tab Layout Runtime) (url : String)
    (dom : Element) : Visit Layout Runtime :=
  { visit with
    tab
    pages := pushedOn (visit.tab.replaces url) visit.tab.historyPos visit.pages visit.next
    shown := visit.next, documents := (visit.next, dom) :: visit.documents
    next := visit.next + 1 }

/-- The page under the cursor is shown when the tab has moved. -/
def moved (visit : Visit Layout Runtime) (outcome : Tab Layout Runtime × Bool) :
    Visit Layout Runtime :=
  { visit with
    tab := outcome.1
    shown := if outcome.2 then visit.pages[outcome.1.historyPos]?.getD visit.shown
      else visit.shown }

/-- The runtime that answers has produced a document of the page that it was made for. -/
def called {α : Type} (visit : Visit Layout Runtime)
    (outcome : Tab Layout Runtime × Except String α) : Visit Layout Runtime :=
  { visit with
    tab := outcome.1
    documents := if visit.tab.runtime.isSome && outcome.2.toBool then
      (visit.owner, outcome.1.dom) :: visit.documents else visit.documents }

/-- The runtime is made from the document that the tab holds. A tab that sleeps holds an empty
one, which is no page of the history. -/
def initialised (visit : Visit Layout Runtime)
    (outcome : Tab Layout Runtime × Except String Unit) : Visit Layout Runtime :=
  match outcome with
  | (tab, .ok ()) =>
    let page := if visit.tab.isSleeping then visit.next else visit.shown
    { visit with
      tab, owner := page, documents := (page, tab.dom) :: visit.documents, next := visit.next + 1 }
  | (tab, .error _) => { visit with tab }

section Steps

variable [SnapshotFormat] [PagePlatform Layout Runtime]

def step (visit : Visit Layout Runtime) : PageAction Layout Runtime → Visit Layout Runtime
  | .loadHtml url title dom layout =>
    visit.loaded (visit.tab.loadHtml url title dom layout) url dom
  | .loadUrl url title dom layout =>
    visit.loaded (visit.tab.loadUrl url title dom layout) url dom
  | .failLoad url title dom =>
    { visit with
      tab := visit.tab.failLoad url title dom, shown := visit.next
      documents := (visit.next, dom) :: visit.documents, next := visit.next + 1 }
  | .initRuntime cssRules viewportWidth baseUrl =>
    visit.initialised (visit.tab.initRuntime cssRules viewportWidth baseUrl)
  | .attachRuntime runtime =>
    { visit with tab := visit.tab.attachRuntime runtime, owner := visit.shown }
  | .goBack => visit.moved visit.tab.goBack
  | .goForward => visit.moved visit.tab.goForward
  | .sleep now => { visit with tab := (visit.tab.sleep now).1 }
  | .wake now => { visit with tab := (visit.tab.wake now).1 }
  | .pumpRuntime elapsedMs => visit.called (visit.tab.pumpRuntime elapsedMs)
  | .evaluateJs script => visit.called (visit.tab.evaluateJs script)
  | .dispatchEvent target eventType => visit.called (visit.tab.dispatchEvent target eventType)

omit [PagePlatform Layout Runtime] in
/-- A new tab shows its first page. -/
def opened (id : Nat) (url : String) (dom : Element) (title : String) (now : Int) :
    Visit Layout Runtime :=
  { tab := .new id url dom title now, pages := [0], shown := 0, owner := 0
    documents := [(0, dom)], next := 1 }

end Steps

/-! ## The law -/

/-- An awake tab without an error page shows the page under its cursor. -/
def ShowsPage (visit : Visit Layout Runtime) : Prop :=
  visit.tab.isSleeping = false → visit.tab.isError = false →
    ∃ entry, visit.tab.history[visit.tab.historyPos]? = some entry ∧
      visit.tab.url = entry.url ∧ visit.tab.title = entry.title ∧
      visit.pages[visit.tab.historyPos]? = some visit.shown ∧
      (visit.shown, visit.tab.dom) ∈ visit.documents

/-- What the runtime writes and answers is of the page that the tab shows. -/
def OwnRuntime (visit : Visit Layout Runtime) : Prop :=
  visit.tab.runtime.isSome → visit.owner = visit.shown

/-- The page is left without a runtime, and not while the tab sleeps. -/
def Leaves (tab : Tab Layout Runtime) : Prop := tab.isSleeping = false ∧ tab.runtime = none

/-- The step leaves the old page as `set_url` and `sleep` would, and no document is lost in a
snapshot. -/
def Keeping [SnapshotFormat] [PagePlatform Layout Runtime] (tab : Tab Layout Runtime) :
    PageAction Layout Runtime → Prop
  | .loadHtml _ _ dom _ | .loadUrl _ _ dom _ => Leaves tab ∧ Snapshotable dom
  | .failLoad .. => tab.runtime = none
  | .initRuntime .. => tab.isSleeping = false
  | .goBack => tab.isError = true ∨ 0 < tab.historyPos → Leaves tab
  | .goForward => tab.historyPos + 1 < tab.history.length → Leaves tab
  | .sleep _ => tab.isSleeping = false → Snapshotable tab.dom
  | .attachRuntime _ | .wake _ | .pumpRuntime _ | .evaluateJs _ | .dispatchEvent .. => True

section Sound

variable [SnapshotFormat]

/-- The document that the tab shows, or will show when it wakes. -/
def awakeDom (tab : Tab Layout Runtime) : Element :=
  if tab.isSleeping then restored tab.compressedDom else tab.dom

/-- Where the address, the title and the document of a visit come from. -/
structure Sound (visit : Visit Layout Runtime) : Prop where
  entries : List.Forall₂ (fun entry page => (page, restored entry.compressedDom) ∈ visit.documents)
    visit.tab.history visit.pages
  cursor : visit.tab.historyPos < visit.tab.history.length
  current : visit.tab.isError = false → ∃ entry,
    visit.tab.history[visit.tab.historyPos]? = some entry ∧ visit.tab.url = entry.url ∧
      visit.tab.title = entry.title ∧ visit.pages[visit.tab.historyPos]? = some visit.shown
  document : visit.tab.isError = false → (visit.shown, awakeDom visit.tab) ∈ visit.documents
  owned : OwnRuntime visit

variable {visit : Visit Layout Runtime}

theorem Sound.showsPage (sound : Sound visit) : ShowsPage visit := by
  intro awake fine
  obtain ⟨entry, hentry, hurl, htitle, hpage⟩ := sound.current fine
  have hdom := sound.document fine
  rw [awakeDom, awake] at hdom
  exact ⟨entry, hentry, hurl, htitle, hpage, hdom⟩

theorem Sound.entries_mono (sound : Sound visit) {documents : List (Nat × Element)}
    (h : ∀ document ∈ visit.documents, document ∈ documents) :
    List.Forall₂ (fun entry page => (page, restored entry.compressedDom) ∈ documents)
      visit.tab.history visit.pages :=
  sound.entries.imp fun _ _ hmem => h _ hmem

theorem sound_opened (hformat : RoundTrips) (id : Nat) (url : String) {dom : Element}
    (hdom : Snapshotable dom) (title : String) (now : Int) :
    Sound (opened id url dom title now : Visit Layout Runtime) where
  entries := by
    refine .cons ?_ .nil
    show (0, restored (HistoryEntry.compressDom dom)) ∈ _
    rw [restored_compressDom hformat hdom]
    exact mem_singleton_self _
  cursor := Nat.zero_lt_one
  current := fun _ => ⟨_, rfl, rfl, rfl, rfl⟩
  document := fun _ => mem_singleton_self _
  owned := fun attached => nomatch attached

theorem Sound.loaded (hformat : RoundTrips) (sound : Sound visit) {tab : Tab Layout Runtime}
    {url title : String} {dom : Element} (hdom : Snapshotable dom) (left : Leaves visit.tab)
    (hhistory : tab.history = pushedOn (visit.tab.replaces url) visit.tab.historyPos
      visit.tab.history (.new url title dom))
    (hpos : tab.historyPos = tab.history.length - 1)
    (hshown : tab.url = url ∧ tab.title = title ∧ tab.dom = dom)
    (hkept : tab.isSleeping = visit.tab.isSleeping ∧ tab.runtime = visit.tab.runtime) :
    Sound (visit.loaded tab url dom) := by
  obtain ⟨rfl, rfl, rfl⟩ := hshown
  have hnew : (visit.next, restored (HistoryEntry.compressDom tab.dom)) ∈
      (visit.loaded tab tab.url tab.dom).documents := by
    rw [restored_compressDom hformat hdom]
    exact mem_cons_self
  have hentries : List.Forall₂
      (fun entry page => (page, restored entry.compressedDom) ∈
        (visit.loaded tab tab.url tab.dom).documents)
      tab.history (visit.loaded tab tab.url tab.dom).pages := by
    rw [hhistory]
    exact pushedOn_forall₂ (sound.entries_mono fun _ => mem_cons_of_mem _) hnew _ _
  have hlast : tab.history[tab.historyPos]? = some (.new tab.url tab.title tab.dom) := by
    rw [hpos, hhistory]
    exact pushedOn_last ..
  constructor
  · exact hentries
  · exact (List.getElem?_eq_some_iff.mp hlast).1
  · intro _
    refine ⟨_, hlast, rfl, rfl, ?_⟩
    show (visit.loaded tab tab.url tab.dom).pages[tab.historyPos]? = some visit.next
    rw [hpos, hentries.length_eq]
    exact pushedOn_last ..
  · intro _
    show (visit.next, awakeDom tab) ∈ _
    rw [awakeDom, hkept.1, left.1]
    exact mem_cons_self
  · intro attached
    have hgone : tab.runtime = none := hkept.2.trans left.2
    rw [show (visit.loaded tab tab.url tab.dom).tab = tab from rfl, hgone] at attached
    cases attached

theorem Sound.moved (sound : Sound visit) (left : Leaves visit.tab) {pos : Nat}
    {entry : HistoryEntry} (hentry : visit.tab.history[pos]? = some entry) :
    Sound (visit.moved ({ visit.tab with historyPos := pos }.showEntry entry, true)) := by
  obtain ⟨hbound, rfl⟩ := List.getElem?_eq_some_iff.mp hentry
  have hpages : pos < visit.pages.length := sound.entries.length_eq ▸ hbound
  have hshown : visit.pages[pos]? = some visit.pages[pos] := List.getElem?_eq_getElem hpages
  have hrecorded : (visit.pages[pos], restored visit.tab.history[pos].compressedDom) ∈
      visit.documents := (forall₂_iff_get.mp sound.entries).2 pos hbound hpages
  have hnow : (visit.moved ({ visit.tab with historyPos := pos }.showEntry visit.tab.history[pos],
      true)).shown = visit.pages[pos] := by
    show (if true = true then visit.pages[pos]?.getD visit.shown else visit.shown) = _
    rw [if_pos rfl, hshown, Option.getD_some]
  constructor
  · exact sound.entries
  · exact hbound
  · intro _
    exact ⟨_, hentry, rfl, rfl, hshown.trans (congrArg some hnow.symm)⟩
  · intro _
    rw [hnow]
    show (_, if visit.tab.isSleeping then _ else _) ∈ _
    rw [left.1]
    exact hrecorded
  · intro attached
    rw [show (visit.moved _).tab.runtime = visit.tab.runtime from rfl, left.2] at attached
    cases attached

theorem Sound.goBack (sound : Sound visit)
    (left : visit.tab.isError = true ∨ 0 < visit.tab.historyPos → Leaves visit.tab) :
    Sound (visit.moved visit.tab.goBack) := by
  have hstay : Sound (visit.moved (visit.tab, false)) := sound
  unfold Tab.goBack
  split
  · next herror =>
    -- back from an error page the cursor stays where it is
    split
    · next entry hentry => exact sound.moved (left (.inl herror)) hentry
    · exact hstay
  · split
    · next hpos =>
      split
      · next entry hentry => exact sound.moved (left (.inr hpos)) hentry
      · exact hstay
    · exact hstay

theorem Sound.goForward (sound : Sound visit)
    (left : visit.tab.historyPos + 1 < visit.tab.history.length → Leaves visit.tab) :
    Sound (visit.moved visit.tab.goForward) := by
  unfold Tab.goForward
  split
  · next entry hentry =>
    exact sound.moved (left (List.getElem?_eq_some_iff.mp hentry).1) hentry
  · exact sound

theorem Sound.wake (sound : Sound visit) (now : Int) :
    Sound { visit with tab := (visit.tab.wake now).1 } := by
  rcases hasleep : visit.tab.isSleeping with _ | _
  · rw [Tab.wake, hasleep]
    exact sound
  · have hwoken : (visit.tab.wake now).1 =
        { visit.tab with
          isSleeping := false, sleptAt := none, lastActiveTimestamp := now, layout := none
          compressedDom := none, dom := restored visit.tab.compressedDom } := by
      rw [Tab.wake, hasleep, restored]
      cases hdom : visit.tab.compressedDom.bind decompressDomBytes <;> simp
    rw [hwoken]
    refine ⟨sound.entries, sound.cursor, sound.current, fun fine => ?_, sound.owned⟩
    have hdom := sound.document fine
    rw [awakeDom, hasleep] at hdom
    exact hdom

section Platform

variable [PagePlatform Layout Runtime]

theorem Sound.sleep (hformat : RoundTrips) (sound : Sound visit) (now : Int)
    (hdom : visit.tab.isSleeping = false → Snapshotable visit.tab.dom) :
    Sound { visit with tab := (visit.tab.sleep now).1 } := by
  rcases hasleep : visit.tab.isSleeping with _ | _
  · have hslept : (visit.tab.sleep now).1 =
        { visit.tab with
          compressedDom := HistoryEntry.compressDom visit.tab.dom, dom := rootDom, layout := none
          runtime := none, isSleeping := true, sleptAt := some now } := by
      simp [Tab.sleep, hasleep, compressDom_eq (hdom hasleep)]
    rw [hslept]
    refine ⟨sound.entries, sound.cursor, sound.current, fun fine => ?_, nofun⟩
    have hshown := sound.document fine
    rw [awakeDom, hasleep] at hshown
    show (visit.shown, restored (HistoryEntry.compressDom visit.tab.dom)) ∈ visit.documents
    rw [restored_compressDom hformat (hdom hasleep)]
    exact hshown
  · rw [show (visit.tab.sleep now).1 = visit.tab by simp [Tab.sleep, hasleep]]
    exact sound

/-- The runtime of the shown page produces documents of that page. -/
theorem Sound.showRuntime (sound : Sound visit) (runtime : Runtime)
    (owned : visit.owner = visit.shown) :
    Sound { visit with
      tab := visit.tab.showRuntime runtime
      documents := (visit.owner, (visit.tab.showRuntime runtime).dom) :: visit.documents } := by
  refine ⟨sound.entries_mono fun _ => mem_cons_of_mem _, sound.cursor, sound.current,
    fun fine => ?_, fun _ => owned⟩
  have hdom := sound.document fine
  rw [awakeDom] at hdom
  show (visit.shown, if visit.tab.isSleeping then restored visit.tab.compressedDom
    else (visit.tab.showRuntime runtime).dom) ∈ _
  cases hasleep : visit.tab.isSleeping with
  | true =>
    rw [hasleep] at hdom
    exact mem_cons_of_mem _ hdom
  | false =>
    rw [← owned]
    exact mem_cons_self

theorem Sound.called {α : Type} (sound : Sound visit) {missing : Except String α}
    (call : Runtime → Except String α × Runtime) :
    Sound (visit.called (match visit.tab.runtime with
      | none => (visit.tab, missing)
      | some runtime => visit.tab.afterCall (call runtime))) := by
  rcases hruntime : visit.tab.runtime with _ | runtime
  · show Sound { visit with
      documents := if visit.tab.runtime.isSome && missing.toBool then _ else visit.documents }
    rw [hruntime]
    exact sound
  · have owned : visit.owner = visit.shown := sound.owned (hruntime ▸ rfl)
    dsimp only
    rcases call runtime with ⟨message | value, after⟩
    · show Sound { visit with
        tab := { visit.tab with runtime := some after }
        documents := if visit.tab.runtime.isSome && false then _ else visit.documents }
      rw [Bool.and_false]
      exact ⟨sound.entries, sound.cursor, sound.current, sound.document, fun _ => owned⟩
    · show Sound { visit with
        tab := visit.tab.showRuntime after
        documents := if visit.tab.runtime.isSome && true then
          (visit.owner, (visit.tab.showRuntime after).dom) :: visit.documents
          else visit.documents }
      rw [hruntime]
      exact sound.showRuntime after owned

theorem Sound.initialised (sound : Sound visit) (cssRules : List (PagePlatform.Rule Layout Runtime))
    (viewportWidth : Nat) (baseUrl : String) (awake : visit.tab.isSleeping = false) :
    Sound (visit.initialised (visit.tab.initRuntime cssRules viewportWidth baseUrl)) := by
  unfold Tab.initRuntime
  split
  · exact sound
  · next runtime _ =>
    have hmine : Sound { visit with owner := visit.shown } :=
      ⟨sound.entries, sound.cursor, sound.current, sound.document, fun _ => rfl⟩
    have hshown := hmine.showRuntime (PagePlatform.runDocument Layout runtime) rfl
    rw [Visit.initialised, awake]
    exact ⟨hshown.entries, hshown.cursor, hshown.current, hshown.document, hshown.owned⟩

theorem Sound.step (hformat : RoundTrips) (sound : Sound visit)
    {action : PageAction Layout Runtime} (keeping : Keeping visit.tab action) :
    Sound (visit.step action) := by
  cases action with
  | loadHtml url title dom layout =>
    refine sound.loaded hformat keeping.2 keeping.1 ?_ ?_ ⟨rfl, rfl, rfl⟩ ?_ <;>
      simp [Tab.loadHtml, pushHistory_eq, HistoryEntry.new]
  | loadUrl url title dom layout =>
    cases layout <;>
      refine sound.loaded hformat keeping.2 keeping.1 ?_ ?_ ⟨rfl, rfl, rfl⟩ ?_ <;>
        simp [Tab.loadUrl, pushHistory_eq, HistoryEntry.new, Tab.replaces]
  | failLoad url title dom =>
    refine ⟨sound.entries_mono fun _ => mem_cons_of_mem _, sound.cursor, nofun, nofun, ?_⟩
    intro attached
    rw [show (visit.step _).tab.runtime = visit.tab.runtime from rfl,
      show visit.tab.runtime = none from keeping] at attached
    cases attached
  | initRuntime cssRules viewportWidth baseUrl => exact sound.initialised _ _ _ keeping
  | attachRuntime runtime =>
    exact ⟨sound.entries, sound.cursor, sound.current, sound.document, fun _ => rfl⟩
  | goBack => exact sound.goBack keeping
  | goForward => exact sound.goForward keeping
  | sleep now => exact sound.sleep hformat now keeping
  | wake now => exact sound.wake now
  | pumpRuntime elapsedMs =>
    exact sound.called fun runtime => PagePlatform.pumpEvents Layout runtime elapsedMs
  | evaluateJs script => exact sound.called fun runtime => PagePlatform.evaluate runtime _
  | dispatchEvent target eventType =>
    exact sound.called fun runtime => PagePlatform.dispatchEventByType runtime _ _ none

end Platform

end Sound

end Visit

/-- A run that leaves each page without a runtime and awake shows the page under its cursor,
and the runtime that is attached is that page's. -/
theorem visits_faithful [SnapshotFormat] [PagePlatform Layout Runtime] (hformat : RoundTrips)
    (id : Nat) (url : String) (dom : Element) (title : String) (now : Int)
    (hdom : Snapshotable dom) (actions : List (PageAction Layout Runtime))
    (keeping : ∀ moment ∈ History.history Visit.step (.opened id url dom title now) actions,
      Visit.Keeping moment.1.tab moment.2) :
    ∀ visit ∈ History.visited Visit.step
        (.opened id url dom title now : Visit Layout Runtime) actions,
      visit.ShowsPage ∧ visit.OwnRuntime := by
  intro visit visited
  have sound : visit.Sound := History.visited_keeps Visit.step
    (Visit.sound_opened hformat id url hdom title now)
    (fun moment hmem sound => sound.step hformat (keeping moment hmem)) visit visited
  exact ⟨sound.showsPage, sound.owned⟩

/-! ## A runtime that outlives its page -/

section Instances

def textPage (text : Text) : Element := { Element.new "html".toList with text }

def textPageJson (text : Text) : Text :=
  "\x7b\"tag\":\"html\",\"attrs\":\x7b\x7d,\"children\":[],\"text\":\"".toList ++ text ++
    "\",\"is_void\":false\x7d".toList

def pageA : Element := textPage ['A']
def pageB : Element := textPage ['B']

def textPageBytes (text : Text) : Bytes := (textPageJson text).map fun c => UInt8.ofNat c.toNat

def writeTextPage (dom : Element) : Option Bytes :=
  if dom.nodeId.isNone && dom.tag == "html".toList && dom.attrs.isEmpty && dom.children.isEmpty &&
      (dom.text == ['A'] || dom.text == ['B']) && !dom.isVoid then some (textPageBytes dom.text)
  else none

def readTextPage (text : Text) : Option Element :=
  if text = textPageJson ['A'] then some pageA
  else if text = textPageJson ['B'] then some pageB
  else none

/-- The format of the two pages. gzip does not make them smaller. -/
@[reducible] def textPages : SnapshotFormat where
  toJson := writeTextPage
  gzip bytes := some (gzipMagic ++ bytes)
  gunzip bytes := some ((bytes.drop 2).map fun b => Char.ofNat b.toNat)
  fromUtf8 bytes := some (bytes.map fun b => Char.ofNat b.toNat)
  fromJson := readTextPage

/-- Pages without scripts: a runtime is its document. -/
@[reducible] def quietPages : PagePlatform Unit Element where
  Rule := Unit
  Value := Unit
  Report := Unit
  countLayoutNodes _ := 0
  fromElement dom _ _ _ := .ok dom
  runDocument runtime := runtime
  domElement runtime := (runtime, runtime)
  pumpEvents runtime _ := (.ok 0, runtime)
  evaluate runtime _ := (.ok (), runtime)
  dispatchEventByType runtime _ _ _ := (.ok (), runtime)

theorem writeTextPage_eq_some {dom : Element} {bytes : Bytes} (h : writeTextPage dom = some bytes) :
    ∃ text ∈ [['A'], ['B']], dom = textPage text ∧ bytes = textPageBytes text := by
  obtain ⟨nodeId, tag, attrs, children, text, isVoid⟩ := dom
  simp only [writeTextPage, Option.ite_none_right_eq_some, Bool.and_eq_true, Bool.or_eq_true,
    beq_iff_eq, Option.isNone_iff_eq_none, Std.ExtTreeMap.isEmpty_iff, List.isEmpty_iff,
    Bool.not_eq_true', Option.some.injEq] at h
  obtain ⟨⟨⟨⟨⟨⟨rfl, rfl⟩, rfl⟩, rfl⟩, htext⟩, rfl⟩, rfl⟩ := h
  exact ⟨text, by simpa using htext, rfl, rfl⟩

theorem readTextPage_eq {text : Text} (h : text ∈ [['A'], ['B']]) :
    readTextPage (textPageJson text) = some (textPage text) := by
  obtain rfl | rfl : text = ['A'] ∨ text = ['B'] := by simpa using h
  · exact if_pos rfl
  · rw [readTextPage, if_neg (by decide), if_pos rfl]
    rfl

theorem textPageBytes_ascii {text : Text} (h : text ∈ [['A'], ['B']]) :
    ((textPageBytes text).map fun b => Char.ofNat b.toNat) = textPageJson text ∧
      gzipMagic.isPrefixOf (textPageBytes text) = false ∧
      (textPageBytes text).length ≤ maxSnapshotJsonBytes ∧
      jsonNestingDepth (textPageJson text) ≤ snapshotMaxJsonDepth := by
  obtain rfl | rfl : text = ['A'] ∨ text = ['B'] := by simpa using h
  all_goals decide

theorem roundTrips_textPages : @RoundTrips textPages := by
  refine @RoundTrips.mk textPages ?_ ?_ ?_
  · intro dom bytes hjson
    obtain ⟨text, htext, rfl, rfl⟩ := writeTextPage_eq_some hjson
    exact ⟨_, rfl, (textPageBytes_ascii htext).1 ▸ readTextPage_eq htext⟩
  · intro dom bytes hjson
    obtain ⟨text, htext, rfl, rfl⟩ := writeTextPage_eq_some hjson
    exact (textPageBytes_ascii htext).2.1
  · rintro bytes _ ⟨⟩
    exact ⟨by simp [gzipMagic], rfl⟩

theorem snapshotable_textPage {text : Text} (h : text ∈ [['A'], ['B']]) :
    @Snapshotable textPages (textPage text) := by
  have hwritten : writeTextPage (textPage text) = some (textPageBytes text) := by
    have hcheck : text = ['A'] ∨ text = ['B'] := by simpa using h
    simp [writeTextPage, textPage, Element.new, hcheck]
  obtain ⟨hback, -, hsmall, hflat⟩ := textPageBytes_ascii h
  refine @Snapshotable.mk textPages _ ?_ ?_ ?_
  · simp [Within, flatten, textPage, Element.new, flattenAll]
  · exact fun htrivial => absurd htrivial (by simp [isTrivial, textPage, Element.new])
  · intro _
    refine ⟨_, _, hwritten, rfl, hsmall, ?_⟩
    rintro _ ⟨⟩
    exact hback ▸ hflat

end Instances

/-- Script, sleep, wake, another page, and back. -/
theorem visits_faithful_returned :
    let := textPages
    let := quietPages
    ∀ visit ∈ History.visited Visit.step
      (.opened 1 "https://a.example/" pageA "A" 0 : Visit Unit Element)
      [.initRuntime [] 800 "https://a.example/", .evaluateJs "0;", .sleep 1, .wake 2,
        .loadHtml "https://b.example/" "B" pageB none, .goBack],
      visit.ShowsPage ∧ visit.OwnRuntime := by
  let := textPages
  let := quietPages
  refine visits_faithful roundTrips_textPages 1 "https://a.example/" pageA "A" 0
    (snapshotable_textPage (.head _)) _ ?_
  simp only [History.history, forall_mem_cons]
  refine ⟨rfl, trivial, fun _ => snapshotable_textPage (.head _), trivial,
    ⟨⟨by decide, Option.isNone_iff_eq_none.mp (by decide)⟩,
      snapshotable_textPage (.tail _ (.head _))⟩,
    fun _ => ⟨by decide, Option.isNone_iff_eq_none.mp (by decide)⟩, ?_⟩
  exact fun _ hmem => absurd hmem not_mem_nil

/-- The load keeps the runtime of the first page, whose document the pump shows. -/
theorem loaded_under_runtime :
    let := textPages
    let := quietPages
    let visit := History.run Visit.step
      (.opened 1 "https://a.example/" pageA "A" 0 : Visit Unit Element)
      [.initRuntime [] 800 "https://a.example/", .loadHtml "https://b.example/" "B" pageB none,
        .pumpRuntime 33]
    visit.tab.url = "https://b.example/" ∧ visit.tab.dom = pageA ∧
      ¬visit.ShowsPage ∧ ¬visit.OwnRuntime := by
  refine ⟨rfl, rfl, ?_, ?_⟩
  · intro shows
    obtain ⟨_, -, -, -, -, hdom⟩ := shows rfl rfl
    have hpages : ((2, pageA) : Nat × Element) ∈ [(0, pageA), (2, pageB), (0, pageA), (0, pageA)] :=
      hdom
    have htext : (2, ['A']) ∈ [(0, ['A']), (2, ['B']), (0, ['A']), (0, ['A'])] :=
      mem_map_of_mem (f := fun document : Nat × Element => (document.1, document.2.text)) hpages
    exact absurd htext (by decide)
  · intro own
    exact absurd (own rfl) (by decide)

end GhitaBrowser.Tabs
