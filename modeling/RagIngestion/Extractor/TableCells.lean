import RagIngestion.Extractor.Extract

/-! What becomes of the cells of an exported table: the entry `data` holds them, and the
sanitiser takes it for image data. -/
namespace RagIngestion.Extractor
open RagIngestion.Python

/-- The cell content of the table at a position of the exported `tables` list. -/
def HasCells (exported : List (PyKey × PyVal)) (i : ℕ) (cells : PyVal) : Prop :=
  ∃ tables table, exported.lookup (.str (py "tables"))=some (.list tables) ∧
    tables[i]?=some (.dict table) ∧ table.lookup (.str (py "data"))=some cells

/-- Every table's cells are found in the normalised document, at the same index. -/
def CellsSurvive (exported : List (PyKey × PyVal)) (document : Json) : Prop :=
  ∀ i cells, HasCells exported i cells →
    ∃ tables table, document.get (py "tables")=some (.list tables) ∧ tables[i]?=some table ∧
      table.get (py "data")=some (withoutBinary cells)

/-- `normalized["document"]`. -/
def ExtractionResult.document (result : ExtractionResult) : Json :=
  (result.normalized.lookup (py "document")).getD .null

/-- Give each table new cells. -/
def setTableCells (cells : ℕ → PyVal) : ℕ → List PyVal → List PyVal
  | _, [] => []
  | i, .dict table::tables =>
    .dict (table.map (fun kv => if kv.1=.str (py "data") then (kv.1,cells i) else kv))::
      setTableCells cells (i+1) tables
  | i, x::tables => x::setTableCells cells (i+1) tables

/-- The same export with other cell content. -/
def setCells (cells : ℕ → PyVal) (exported : List (PyKey × PyVal)) : List (PyKey × PyVal) :=
  exported.map (fun kv =>
    match kv with
    | (k,.list tables) => if k=.str (py "tables") then (k,.list (setTableCells cells 0 tables)) else kv
    | _ => kv)

lemma isBinaryKey_data : isBinaryKey (py "data")=true := by decide +kernel

/-- The sanitiser does not look at entries it drops. -/
lemma withoutBinaryItems_setData (cells : PyVal) (table : List (PyKey × PyVal)) :
    withoutBinary.withoutBinaryItems
        (table.map (fun kv => if kv.1=.str (py "data") then (kv.1,cells) else kv))=
      withoutBinary.withoutBinaryItems table := by
  induction table with
  | nil => rfl
  | cons kv table ih =>
    obtain ⟨k,x⟩ := kv
    by_cases hk : k=.str (py "data")
    · have hb : isBinaryKey k.text=true := by rw [hk]; exact isBinaryKey_data
      simp [withoutBinary.withoutBinaryItems,hk,ih]
      simp [PyKey.text,isBinaryKey_data]
    · simp [withoutBinary.withoutBinaryItems,hk,ih]

lemma withoutBinaryList_setTableCells (cells : ℕ → PyVal) (i : ℕ) (tables : List PyVal) :
    withoutBinary.withoutBinaryList (setTableCells cells i tables)=
      withoutBinary.withoutBinaryList tables := by
  induction tables generalizing i with
  | nil => rfl
  | cons x tables ih =>
    cases x with
    | dict table =>
      simp only [setTableCells,withoutBinary.withoutBinaryList,ih,withoutBinary,
        withoutBinaryItems_setData]
    | _ => simp only [setTableCells,withoutBinary.withoutBinaryList,ih]

/-- Exports that differ only in cell content are sanitised to the same document. -/
theorem withoutBinaryDict_setCells (cells : ℕ → PyVal) (exported : List (PyKey × PyVal)) :
    withoutBinaryDict (setCells cells exported)=withoutBinaryDict exported := by
  refine congrArg Json.ofItems ?_
  induction exported with
  | nil => rfl
  | cons kv exported ih =>
    obtain ⟨k,x⟩ := kv
    have hrest : exported.map _=setCells cells exported := rfl
    simp only [setCells,List.map_cons] at hrest ⊢
    cases x with
    | list tables =>
      by_cases hk : k=.str (py "tables")
      · simp only [hk,if_true,withoutBinary.withoutBinaryItems,withoutBinary,
          withoutBinaryList_setTableCells]
        rw [← ih]
        rfl
      · simp only [hk,if_false,withoutBinary.withoutBinaryItems]
        rw [← ih]
        rfl
    | _ =>
      simp only [withoutBinary.withoutBinaryItems]
      rw [← ih]
      rfl

variable {rt : Runtime} {σ : Type}

lemma document_extractionResult (content : Bytes) (exported : List (PyStr × Json)) (markdown : PyStr) :
    (extractionResult rt content exported markdown).document=.dict exported := rfl

/-- No table of a sanitised document has cells. -/
theorem no_cells_kept {exported : List (PyKey × PyVal)} {tables : List Json} {table : Json} {i : ℕ}
    (hget : (withoutBinaryDict exported).lookup (py "tables")=some (.list tables))
    (hi : tables[i]?=some table) : table.get (py "data")=none := by
  obtain ⟨x,hx⟩ := lookup_withoutBinaryDict hget
  cases x with
  | list xs =>
    simp only [withoutBinary,withoutBinaryList_eq_map,Json.list.injEq] at hx
    rw [hx,List.getElem?_map] at hi
    obtain ⟨y,-,rfl⟩ := Option.map_eq_some_iff.mp hi
    exact get_withoutBinary isBinaryKey_data y
  | _ => simp [withoutBinary] at hx

/-- The cells of the tables of an export survive the extraction exactly when there are none;
whatever they are, the result of the extraction is the same. -/
theorem table_cells_survive_iff {read : Reader σ} {source : σ} {maxBytes : ℕ}
    {expectedSha256 markdown : PyStr} {exported : List (PyKey × PyVal)} {result : ExtractionResult}
    (h : extractPdf rt read source maxBytes expectedSha256 (fun _ => .ok (exported,markdown))=
      .ok result) :
    (CellsSurvive exported result.document ↔ ∀ i cells, ¬HasCells exported i cells) ∧
      ∀ cells, extractPdf rt read source maxBytes expectedSha256
        (fun _ => .ok (setCells cells exported,markdown))=.ok result := by
  obtain ⟨content,_,_,hread,hne,hconvert,rfl,rfl⟩ := extractPdf_eq_ok h
  cases hconvert
  constructor
  · rw [document_extractionResult]
    constructor
    · intro hall i cells hcells
      obtain ⟨tables,table,hget,hi,hdata⟩ := hall i cells hcells
      rw [no_cells_kept hget hi] at hdata
      cases hdata
    · intro hnone i cells hcells
      exact absurd hcells (hnone i cells)
  · intro cells
    rw [← withoutBinaryDict_setCells cells exported]
    exact extractPdf_of_read hread hne rfl

/-- An export with one table of one cell. -/
def oneCell (text : PyStr) : List (PyKey × PyVal) :=
  [(.str (py "tables"),.list [.dict [(.str (py "data"),
    .dict [(.str (py "grid"),.list [.list [.str text]])])]])]

/-- One cell or another, the extraction gives the same result, and no cell. -/
theorem other_cell_same_result : ∃ result,
    extractPdf plainRuntime readAvailable plainSource 1048576 plainHash
      (fun _ => .ok (oneCell (py "42"),py "text"))=.ok result ∧
    extractPdf plainRuntime readAvailable plainSource 1048576 plainHash
      (fun _ => .ok (oneCell (py "43"),py "text"))=.ok result ∧
    ¬CellsSurvive (oneCell (py "42")) result.document := by
  have h := extractPdf_plainSource (oneCell (py "42")) (py "text")
  obtain ⟨hsurvive,hsame⟩ := table_cells_survive_iff h
  refine ⟨_,h,hsame (fun _ => .dict [(.str (py "grid"),.list [.list [.str (py "43")]])]),?_⟩
  exact fun hall => hsurvive.mp hall 0 _ ⟨_,_,rfl,rfl,rfl⟩

/-- The cell of the exported table is gone. -/
theorem one_cell_lost : ¬∀ exported result,
    extractPdf plainRuntime readAvailable plainSource 1048576 plainHash
      (fun _ => .ok (exported,py "text"))=.ok result → CellsSurvive exported result.document := by
  intro hall
  have h := hall (oneCell (py "42")) _ (extractPdf_plainSource _ _)
  rw [document_extractionResult] at h
  obtain ⟨tables,table,hget,hi,hdata⟩ := h 0 _ ⟨_,_,rfl,rfl,rfl⟩
  rw [no_cells_kept hget hi] at hdata
  cases hdata

end RagIngestion.Extractor
