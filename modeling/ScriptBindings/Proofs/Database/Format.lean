import ScriptBindings.Database.Format
import ScriptBindings.Proofs.Entity.Format

namespace ScriptBindings.Database

open Document (Decodes)
open Reading (readRecord_of_stores readCatalog_ofCatalog)

theorem decodes : Decodes read document := by
  intro db
  have hnamespaces := readCatalog_ofCatalog NamespaceInfo.decodes db.namespaces
  have hclass : Decodes (Class.read 2) Class.document := Class.decodes (by decide)
  have hclasses := readCatalog_ofCatalog hclass db.classes
  have henums := readCatalog_ofCatalog Enumeration.decodes db.enums
  have hfunction : Decodes (Callable.read 2) Callable.document := Callable.decodes (by decide)
  have hfunctions := readCatalog_ofCatalog hfunction db.functions
  have hglobals := readCatalog_ofCatalog Global.decodes db.globals
  have htypedefs := readCatalog_ofCatalog Typedef.decodes db.typedefs
  exact readRecord_of_stores .malformed (by decide)
    (.cons hnamespaces (.cons hclasses (.cons henums (.cons hfunctions (.cons hglobals
      (.cons htypedefs (.nil db)))))))

theorem parse_text (db : Database) : parse db.text = .ok db := by
  rw [parse, text, Reading.ofText_compact, decodes db]
  rfl

/-- The text of a database stands for the database, with all entries of its catalogs in order. So a
text that is accepted can be replaced by the text of what it stands for. -/
theorem text_roundTrip :
    (∀ db : Database, ofText db.text = .ok db) ∧
    ∀ t : String, (ofText t >>= fun db => ofText db.text) = ofText t := by
  have hback (db : Database) : ofText db.text = .ok db := by
    rw [ofText, parse_text]
    rfl
  refine ⟨hback, fun t => ?_⟩
  cases h : ofText t with
  | ok db => exact hback db
  | error e => rfl

end ScriptBindings.Database
