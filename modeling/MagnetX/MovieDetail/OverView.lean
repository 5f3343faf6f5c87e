/-
# `MagnetX.MovieDetail.OverView` — the summary row and its height

The table of `MovieDetailViewController` (`dataSource`), with the overview cell of
`MagnetX.TextStyle` in its second section.

The row's height is kept apart from what the row shows.  The cell measures its text when
it is bound; the controller copies that height when the expand link is tapped, and
`heightForRowAtIndexPath` returns the copy while the row is expanded.  A new record from
the view model reloads the table, so the cell is bound and measured again, but nobody
tells the controller.

An expanded row fits its summary in a whole run exactly when no record arrived, while the
row was expanded, whose text has another height than the one it replaced
(`expanded_row_fits_iff`).

Taps are not restricted to rows that show the link: a link that is not shown cannot be
tapped, so there are no runs left out.
-/
import MagnetX.TextStyle
import MagnetX.MovieDetail.ViewModel
import MagnetX.Lib.Machine

namespace MagnetX

open Lib CleanJSON

structure MovieDetailOverViewModel where
  isExpanded : Bool
  content : String
  contentHeight : ℚ

/-- The table: the controller's `overViewModel`, the sections of its data source, and the
cell of the second section. -/
structure DetailTable where
  overViewModel : MovieDetailOverViewModel
  sections : List MovieDetailListModel := []
  cell : Option MovieDetailOverViewCell := none

namespace DetailTable

variable (screen : UIScreen) (engine : TextEngine)

def initial : DetailTable where
  overViewModel := ⟨false, "", screen.rpx 90⟩

/-- The model of a section's row. -/
def item (table : DetailTable) (indexPath : Nat) : Option MovieDetailModel :=
  table.sections[indexPath]?.bind fun list => list.items[0]?

/-- `heightForRowAtIndexPath`, while the controller is alive. -/
def heightForRow (table : DetailTable) (indexPath : Nat) : ℚ :=
  if indexPath = 0 then screen.rpx 125
  else if table.overViewModel.isExpanded = false then screen.rpx 125
  else table.overViewModel.contentHeight

/-- Reloading binds the cell to the model of its row. -/
def reload (table : DetailTable) : Except NSRangeException DetailTable :=
  match table.item 1 with
  | none => .ok { table with cell := none }
  | some model => do
      let cell ← (table.cell.getD {}).bindItem screen engine model
      return { table with cell := some cell }

/-- The handler the cell calls, with its own height, when its link is tapped. -/
def didClickExpandHandler (contentHeight : ℚ) (table : DetailTable) : DetailTable :=
  { table with overViewModel :=
      { table.overViewModel with
        isExpanded := !table.overViewModel.isExpanded
        contentHeight := contentHeight } }

inductive Action where
  | arrive (data : MovieDetailModel)
  | tapExpand

/-- What an action changes; a link is tapped in a cell. -/
def changed (table : DetailTable) : Action → Option DetailTable
  | .arrive data => some { table with sections := (MovieDetailViewModel.showData {} data).sections }
  | .tapExpand =>
      match table.cell with
      | none => none
      | some cell => some (table.didClickExpandHandler cell.contentHeight)

/-- The table reloads after either action; the output is the height the row is given. -/
def step (table : DetailTable) (action : Action) : Option (DetailTable × List ℚ) :=
  (table.changed action).bind fun table =>
    (table.reload screen engine).toOption.map fun table => (table, [table.heightForRow screen 1])

def machine : Machine DetailTable Action ℚ := ⟨step screen engine⟩

/-! ## Heights -/

/-- The height a model's text measures, in whole points. -/
def measured (model : MovieDetailModel) : Except NSRangeException ℤ :=
  (MovieDetailOverViewCell.styledContent screen engine
    (MovieDetailOverViewCell.overViewText model)).map
      (MovieDetailOverViewCell.textHeight screen engine)

/-- Binding never fails, and what it makes of a cell does not depend on the cell. -/
theorem bindItem_eq (model : MovieDetailModel) :
    ∃ n cell, measured screen engine model = .ok n ∧
      (∀ old, MovieDetailOverViewCell.bindItem screen engine model old = .ok cell) ∧
      cell.contentHeight = n + screen.rpx 15 * 2 := by
  obtain ⟨styled, hstyled, -, -⟩ := MovieDetailOverViewCell.styledContent_spec screen engine
    (MovieDetailOverViewCell.overViewText model)
  refine ⟨MovieDetailOverViewCell.textHeight screen engine styled, _, ?_,
    MovieDetailOverViewCell.configContent_eq screen engine hstyled, rfl⟩
  rw [measured, hstyled]
  rfl

/-- Cells of the same height are bound to texts that measure the same. -/
theorem contentHeight_eq_iff {model other : MovieDetailModel} {cell cell' : MovieDetailOverViewCell}
    (hbind : MovieDetailOverViewCell.bindItem screen engine model {} = .ok cell)
    (hbind' : MovieDetailOverViewCell.bindItem screen engine other {} = .ok cell') :
    cell.contentHeight = cell'.contentHeight ↔
      measured screen engine model = measured screen engine other := by
  obtain ⟨n, c, hn, hc, hheight⟩ := bindItem_eq screen engine model
  obtain ⟨n', c', hn', hc', hheight'⟩ := bindItem_eq screen engine other
  obtain rfl : c = cell := Except.ok.inj ((hc {}).symm.trans hbind)
  obtain rfl : c' = cell' := Except.ok.inj ((hc' {}).symm.trans hbind')
  rw [hheight, hheight', hn, hn', add_left_inj, Int.cast_inj, Except.ok.injEq]

/-- The row has the height that binding computes for the model it shows. -/
def Fits (table : DetailTable) : Prop :=
  table.overViewModel.isExpanded = true → ∀ model, table.item 1 = some model →
    ∀ cell, MovieDetailOverViewCell.bindItem screen engine model {} = .ok cell →
      table.heightForRow screen 1 = cell.contentHeight

/-- What the table shows: the cell is bound to the model of its row, and only a row that
is there is expanded. -/
structure Bound (table : DetailTable) : Prop where
  cell : ∀ cell, table.cell = some cell → ∃ model, table.item 1 = some model ∧
    MovieDetailOverViewCell.bindItem screen engine model {} = .ok cell
  expanded : table.overViewModel.isExpanded = true → ∃ model, table.item 1 = some model

/-- What replaces the record of an expanded row measures the same. -/
def SameHeight (table : DetailTable) : Action → Prop
  | .arrive data => table.overViewModel.isExpanded = true → ∀ model, table.item 1 = some model →
      measured screen engine data = measured screen engine model
  | .tapExpand => True

/-! ## Steps -/

theorem heightForRow_of_expanded {screen : UIScreen} {table : DetailTable}
    (h : table.overViewModel.isExpanded = true) :
    table.heightForRow screen 1 = table.overViewModel.contentHeight := by
  rw [heightForRow, if_neg Nat.one_ne_zero, h, if_neg (by simp)]

/-- Reloading binds the cell of the row and does nothing else. -/
theorem reload_eq {table : DetailTable} {model : MovieDetailModel}
    (hitem : table.item 1 = some model) :
    ∃ cell, MovieDetailOverViewCell.bindItem screen engine model {} = .ok cell ∧
      table.reload screen engine = .ok { table with cell := some cell } := by
  obtain ⟨-, cell, -, hbind, -⟩ := bindItem_eq screen engine model
  refine ⟨cell, hbind {}, ?_⟩
  rw [reload, hitem]
  show (MovieDetailOverViewCell.bindItem screen engine model _) >>= _ = _
  rw [hbind]
  rfl

/-- A step is a change, reloaded. -/
theorem step_of_changed {table mid : DetailTable} {action : Action} {model : MovieDetailModel}
    (hchanged : table.changed action = some mid) (hitem : mid.item 1 = some model) :
    ∃ cell, MovieDetailOverViewCell.bindItem screen engine model {} = .ok cell ∧
      (machine screen engine).step table action =
        some ({ mid with cell := some cell }, [mid.heightForRow screen 1]) := by
  obtain ⟨cell, hbind, hreload⟩ := reload_eq screen engine hitem
  refine ⟨cell, hbind, ?_⟩
  show (table.changed action).bind _ = _
  rw [hchanged, Option.bind_some, hreload]
  rfl

/-- A record can always arrive, and the controller's own state stays as it is. -/
theorem step_arrive (table : DetailTable) (data : MovieDetailModel) :
    ∃ cell, MovieDetailOverViewCell.bindItem screen engine data {} = .ok cell ∧
      (machine screen engine).step table (.arrive data) =
        some ({ table with
            sections := (MovieDetailViewModel.showData {} data).sections, cell := some cell },
          [table.heightForRow screen 1]) := by
  have hchanged : table.changed (.arrive data) = some { table with
      sections := (MovieDetailViewModel.showData {} data).sections } := rfl
  exact step_of_changed screen engine hchanged rfl

variable {screen engine}

/-- A tap flips the row and copies the height of the cell. -/
theorem step_tapExpand {table : DetailTable} (hbound : Bound screen engine table) :
    (machine screen engine).step table .tapExpand = none ∨
      ∃ model cell, table.item 1 = some model ∧
        MovieDetailOverViewCell.bindItem screen engine model {} = .ok cell ∧
        ∃ o, (machine screen engine).step table .tapExpand =
          some ({ table.didClickExpandHandler cell.contentHeight with cell := some cell }, o) := by
  cases hcell : table.cell with
  | none =>
      refine .inl ?_
      show (table.changed .tapExpand).bind _ = none
      rw [changed, hcell]
      rfl
  | some cell =>
      obtain ⟨model, hitem, hbind⟩ := hbound.cell cell hcell
      have hchanged : table.changed .tapExpand =
          some (table.didClickExpandHandler cell.contentHeight) := by
        rw [changed, hcell]
      have hitem' : (table.didClickExpandHandler cell.contentHeight).item 1 = some model := hitem
      obtain ⟨cell', hbind', hstep⟩ := step_of_changed screen engine hchanged hitem'
      obtain rfl : cell = cell' := Except.ok.inj (hbind.symm.trans hbind')
      exact .inr ⟨model, cell, hitem, hbind, _, hstep⟩

/-! ## Runs -/

/-- One step keeps the row fitting, unless a record of another height replaces the one it
is expanded for. -/
theorem fits_step {table after : DetailTable} {action : Action} {o : List ℚ}
    (hbound : Bound screen engine table) (hfits : Fits screen engine table)
    (hsame : SameHeight screen engine table action)
    (hstep : (machine screen engine).step table action = some (after, o)) :
    Bound screen engine after ∧ Fits screen engine after := by
  cases action with
  | arrive data =>
      obtain ⟨cell, hbind, heq⟩ := step_arrive screen engine table data
      rw [heq] at hstep
      obtain ⟨rfl, -⟩ := Prod.mk.inj (Option.some.inj hstep)
      refine ⟨⟨?_, fun _ => ⟨data, rfl⟩⟩, ?_⟩
      · rintro _ ⟨⟩
        exact ⟨data, rfl, hbind⟩
      · -- the controller's copy is still that of the old record, which measures the same
        intro hexpanded model hmodel cell' hcell'
        obtain rfl : data = model := Option.some.inj hmodel
        obtain ⟨old, hold⟩ := hbound.expanded hexpanded
        obtain ⟨-, oldCell, -, holdBind, -⟩ := bindItem_eq screen engine old
        have hcopy := hfits hexpanded old hold oldCell (holdBind {})
        have hsameHeight := (contentHeight_eq_iff screen engine hcell' (holdBind {})).mpr
          (hsame hexpanded old hold)
        rw [hsameHeight, ← hcopy]
        exact (heightForRow_of_expanded hexpanded).trans (heightForRow_of_expanded hexpanded).symm
  | tapExpand =>
      rcases step_tapExpand hbound with hnone | ⟨model, cell, hitem, hbind, o', heq⟩
      · rw [hnone] at hstep
        cases hstep
      · rw [heq] at hstep
        obtain ⟨rfl, -⟩ := Prod.mk.inj (Option.some.inj hstep)
        refine ⟨⟨?_, fun _ => ⟨model, hitem⟩⟩, ?_⟩
        · rintro _ ⟨⟩
          exact ⟨model, hitem, hbind⟩
        · intro hexpanded model' hmodel' cell' hcell'
          obtain rfl : model = model' := Option.some.inj (hitem.symm.trans hmodel')
          obtain rfl : cell = cell' := Except.ok.inj (hbind.symm.trans hcell')
          exact heightForRow_of_expanded hexpanded

theorem fits_run {actions : List Action} {table : DetailTable} {log : List ℚ}
    (hrun : (machine screen engine).run (initial screen) actions = some (table, log))
    (hsame : (machine screen engine).Guarded (SameHeight screen engine) (initial screen) actions) :
    Bound screen engine table ∧ Fits screen engine table := by
  refine Machine.run_induction (P := fun _ table _ =>
    Bound screen engine table ∧ Fits screen engine table) ⟨⟨?_, ?_⟩, ?_⟩ ?_ hrun hsame
  · intro cell hcell
    cases hcell
  · intro hexpanded
    cases hexpanded
  · intro hexpanded
    cases hexpanded
  · intro _ table _ action after o _ h hG hstep
    exact fits_step h.1 h.2 hG hstep

/-- A record of another height, arriving at an expanded row that fits, leaves one that
does not. -/
theorem sameHeight_of_fits {table : DetailTable} {data : MovieDetailModel}
    (hfits : Fits screen engine table)
    (hafter : ∀ after o, (machine screen engine).step table (.arrive data) = some (after, o) →
      Fits screen engine after) :
    SameHeight screen engine table (.arrive data) := by
  intro hexpanded model hmodel
  obtain ⟨cell, hbind, hstep⟩ := step_arrive screen engine table data
  obtain ⟨-, old, -, hold, -⟩ := bindItem_eq screen engine model
  have hbefore := hfits hexpanded model hmodel old (hold {})
  rw [heightForRow_of_expanded hexpanded] at hbefore
  have hthen : table.overViewModel.contentHeight = cell.contentHeight :=
    (heightForRow_of_expanded hexpanded).symm.trans
      (hafter _ _ hstep hexpanded data rfl cell hbind)
  exact (contentHeight_eq_iff screen engine hbind (hold {})).mp (hthen.symm.trans hbefore)

/-- **An expanded row fits its summary, all through a run, exactly when no record of
another height replaced the one it was expanded for.** -/
theorem expanded_row_fits_iff (screen : UIScreen) (engine : TextEngine) (actions : List Action) :
    (∀ front table log, front <+: actions →
      (machine screen engine).run (initial screen) front = some (table, log) →
        Fits screen engine table) ↔
      (machine screen engine).Guarded (SameHeight screen engine) (initial screen) actions := by
  constructor
  · intro hfits
    rw [Machine.guarded_iff_forall_prefix]
    intro front action hprefix table log hrun
    cases action with
    | arrive data =>
        refine sameHeight_of_fits
          (hfits front table log ((List.prefix_append front _).trans hprefix) hrun) ?_
        intro after o hstep
        exact hfits _ after _ hprefix (Machine.run_snoc _ hrun hstep)
    | tapExpand => trivial
  · rintro hsame front table log ⟨rest, rfl⟩ hrun
    exact (fits_run hrun hsame.of_append).2

/-- A text engine with a line of twenty points for every unit. -/
def lineEngine : TextEngine where
  breaking := .scalars
  boundingHeight attrStr _ := 20 * attrStr.length

def summaryOnly (summary : String) : MovieDetailModel :=
  ⟨"", "", "", "", "", "", "", "", "", "", "", "", "", "", "", "", summary, "", "", "",
    Fallback.value, Fallback.value, [], [], [], [], []⟩

/-- The cached record is shown and the row expanded, then the network's record comes with
a longer summary. -/
def outgrown : List Action :=
  [.arrive (summaryOnly "a summary from the cache"), .tapExpand,
    .arrive (summaryOnly "a longer summary, from the network")]

theorem longer_summary_outgrows_the_row :
    ¬ ∀ front table log, front <+: outgrown →
      (machine sampleScreen lineEngine).run (initial sampleScreen) front = some (table, log) →
        Fits sampleScreen lineEngine table := by
  intro h
  have heval : ((machine sampleScreen lineEngine).run (initial sampleScreen) outgrown).map
      (fun r => (r.1.overViewModel.isExpanded, r.1.heightForRow sampleScreen 1, r.1.item 1)) =
        some (true, 510, some (summaryOnly "a longer summary, from the network")) := by
    decide +kernel
  obtain ⟨⟨table, log⟩, hrun, hstate⟩ := Option.map_eq_some_iff.mp heval
  obtain ⟨hexpanded, hstate⟩ := Prod.mk.inj hstate
  obtain ⟨hheight, hitem⟩ := Prod.mk.inj hstate
  obtain ⟨n, cell, hn, hbind, hcell⟩ := bindItem_eq sampleScreen lineEngine
    (summaryOnly "a longer summary, from the network")
  have hmeasured : measured sampleScreen lineEngine
      (summaryOnly "a longer summary, from the network") = .ok 680 := by
    decide +kernel
  obtain rfl : n = 680 := Except.ok.inj (hn.symm.trans hmeasured)
  have hfits := h outgrown table log List.prefix_rfl hrun hexpanded _ hitem cell (hbind {})
  rw [hheight, hcell] at hfits
  exact absurd hfits (by decide +kernel)

end DetailTable

end MagnetX
