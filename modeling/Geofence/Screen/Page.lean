/-
The page on which fences are checked.

The page has a form for the fences, one location and the path of a table.  Below it stand the fences
written anew with the answers for the location, and then the verdicts on the table.  Each part is
shown as far as it can be worked out, and what stops it hides all that follows.

Main definitions:

* `Geofence.Form` — what was entered;
* `Geofence.Page` — the elements, what broke the page off, and the notices;
* `Geofence.Page.ofForm` — the page for a form and the files there are.
-/

import Geofence.Report.Batch
import Geofence.Screen.Element

set_option relaxedAutoImplicit false
set_option autoImplicit false

namespace Geofence

/-! ### Forms -/

/-- What was entered: the encoded fences, how strictly they are read, a location and the path of a
table. -/
structure Form where
  geometries : Text
  strict : Bool
  point : Location Float
  source : Text

/-- The form before anything is entered. -/
def Form.initial : Form where
  geometries :=
    ("circle|30.7456421,103.9284974|80;" ++
      "polygon|30.744,103.927|30.744,103.930|30.747,103.930|30.747,103.927").toList
  strict := false
  point := ⟨30.7456421, 103.9284974⟩
  source := defaultSource

/-! ### Pages -/

/-- The elements of a page in order, what broke it off if anything did, and the notices made on the
way. -/
structure Page where
  elements : List Element
  failure : Option Failure
  notices : List Notice

namespace Page

/-- A page of some elements. -/
def ofElements (elements : List Element) : Page := ⟨elements, none, []⟩

/-- A page that shows nothing before it breaks off. -/
def broken (cause : Failure) : Page := ⟨[], some cause, []⟩

/-- A page below some elements. -/
def below (elements : List Element) (p : Page) : Page :=
  { p with elements := elements ++ p.elements }

/-- A page after some notices. -/
def afterNotices (notices : List Notice) (p : Page) : Page :=
  { p with notices := notices ++ p.notices }

end Page

/-- A widget in the main part. -/
def inMain (w : Widget) : Element := ⟨.main, w⟩

/-- A widget in the sidebar. -/
def inSidebar (w : Widget) : Element := ⟨.sidebar, w⟩

/-- A widget in a column. -/
def inColumn (index : Nat) (w : Widget) : Element := ⟨.column index, w⟩

/-! ### The form on the screen -/

/-- The title and the form. -/
def formElements : List Element :=
  [inMain (.window "广播围栏检查" "wide"),
    inMain (.title "小区广播地理围栏：坐标是否在围栏内"),
    inSidebar (.heading "围栏编码"),
    inSidebar (.textArea "geometries（circle|lat,lng|radius;polygon|lat,lng|...）"
      Form.initial.geometries),
    inSidebar (.checkBox "严格模式（有错误的段直接报错）" Form.initial.strict),
    inSidebar (.heading "单点检查"),
    inSidebar (.numberField "纬度 lat" Form.initial.point.lat "%.7f"),
    inSidebar (.numberField "经度 lng" Form.initial.point.lng "%.7f"),
    inSidebar (.heading "批量检查（可选）"),
    inSidebar (.textField "坐标CSV路径（需含 latitude/longitude 列）" Form.initial.source)]

/-! ### The answers for one location -/

/-- The fences written anew, and their number. -/
def fenceElements (fences : List (Fence Float)) : List Element :=
  [inMain (.heading "规范化编码"), inMain (.code (writeFences fences)), inMain (.columns 2),
    inColumn 0 (.metric "围栏数量" (toString fences.length))]

/-- The verdict on the location, and the answers of the fences, above the rest of the page. -/
def pointPage (fences : List (Fence Float)) (p : Location Float) (rest : Page) : Page :=
  match anyContains fences p with
  | .error e => .broken (.domain e)
  | .ok inside =>
    .below [inColumn 1 (.metric "坐标在围栏内" (if inside then "是" else "否"))] <|
      match entriesFor fences p with
      | (_, some e) => .broken (.domain e)
      | (entries, none) => .below [inMain (.table (entries.map Entry.cells) none)] rest

/-! ### The verdicts on a table -/

/-- The numbers of a batch, its verdicts, and the file of them. -/
def batchElements (b : Batch) : List Element :=
  [inMain (.heading "批量结果"), inMain (.columns 3),
    inColumn 0 (.metric "解析行数" s!"{b.intake.parsed}/{b.intake.total}"),
    inColumn 1 (.metric "围栏内" (toString b.inside)),
    inColumn 2 (.metric "围栏外" (toString b.outside)),
    inMain (.table (b.verdicts.map Verdict.cells) (some 520)),
    inMain (.download "下载结果CSV" (verdictTable b.verdicts) "results.csv" "text/csv")]

/-- Whether a failure to load a table is shown on the page: a file that cannot be used and missing
columns are, and cells and encodings that cannot be read break the page off. -/
def isShown : Failure → Bool
  | .file (.path _ _) => true
  | .load (.missingColumns _ _) | .load (.noColumn _) => true
  | _ => false

/-- The verdicts on the table in a file. -/
def tablePage (tree : FileTree) (fences : List (Fence Float)) (source : Text) : Page :=
  match loadFile tree source with
  | .error cause =>
    if isShown cause then .ofElements [inMain (.failure cause)] else .broken cause
  | .ok intake =>
    .afterNotices intake.notices <|
      match Batch.ofIntake fences intake with
      | .error e => .broken (.domain e)
      | .ok b => .ofElements (batchElements b)

/-- The verdicts on a table, if there is something at its path. -/
def batchPage (tree : FileTree) (fences : List (Fence Float)) (source : Text) : Page :=
  match tree.contains (.ofText source) with
  | .error cause => .broken (.file cause)
  | .ok false =>
    .ofElements [inMain (.caption s!"找不到文件：{Text.quoted source}，跳过批量检查。")]
  | .ok true => tablePage tree fences source

/-! ### Whole pages -/

/-- What stands below the form. -/
def answerPage (tree : FileTree) (form : Form) : Page :=
  let reading := readFences form.strict form.geometries
  .afterNotices reading.notices <|
    match reading.result with
    | .error cause => .ofElements [inMain (.refusal cause.refusal)]
    | .ok [] => .ofElements [inMain (.warning "没有解析到任何围栏。")]
    | .ok fences =>
      .below (fenceElements fences)
        (pointPage fences form.point (batchPage tree fences form.source))

/-- **The page for a form and the files there are.** -/
def Page.ofForm (tree : FileTree) (form : Form) : Page :=
  .below formElements (answerPage tree form)

end Geofence
