import ColumnFlow.Report.Render

/-!
# New projects

The files a new project starts with: a settings file and an empty folder for definitions, or a small project
with procedures, a view and a schema file.
-/

namespace ColumnFlow

/-- A file or folder of a new project, by its path in the project. -/
inductive TemplateItem where
  | folder (path : String)
  | file (path : String) (content : String)

inductive ProjectTemplate where
  | minimal | worked
  deriving DecidableEq, Repr

namespace ProjectTemplate

/-- The settings of an empty project. -/
def minimalSettings : String :=
  joinLines
    ["# sqllineage project configuration",
     "",
     "# Schema used for unqualified table names.",
     "default_schema: dbo",
     "",
     "# Directories or files analyzed when no path is given.",
     "paths:",
     "  - sql",
     "",
     "# Column metadata used to expand SELECT *.",
     "# schema_file: schema.yaml",
     "",
     "# Files treated as definitions.",
     "extensions:",
     "  - .sql",
     "",
     "# Glob patterns of files and directories to skip.",
     "exclude: []",
     "",
     "# Lowest dynamic SQL risk that fails `sqllineage risk`: Low, Medium, High,",
     "# Critical or none.",
     "fail_on_risk: High",
     "",
     "# Number of definitions analyzed in parallel.",
     "workers: 4"]

/-- The settings of the worked project. -/
def workedSettings : String :=
  joinLines
    ["# sqllineage project configuration",
     "",
     "default_schema: dbo",
     "",
     "paths:",
     "  - procs",
     "  - views",
     "",
     "schema_file: schema.yaml",
     "",
     "extensions:",
     "  - .sql",
     "",
     "exclude: []",
     "",
     "fail_on_risk: High",
     "",
     "workers: 4"]

/-- The tables of the worked project. -/
def workedSchema : String :=
  joinLines
    ["# Columns of the tables read by the definitions. Used to expand SELECT *.",
     "default_schema: dbo",
     "",
     "schemas:",
     "  sales:",
     "    Orders: [order_id, customer_id, order_date, quantity, unit_price]",
     "    Customers: [customer_id, name, region]",
     "  dbo:",
     "    OrderFacts: [order_id, customer_name, region, amount, loaded_at]"]

/-- A procedure whose lineage can be followed. -/
def loadProcedure : String :=
  joinLines
    ["/*---",
     "name: dbo.usp_load_order_facts",
     "description: Loads order facts from the sales schema",
     "owner: data-platform",
     "tags: [facts, nightly]",
     "---*/",
     "CREATE PROCEDURE dbo.usp_load_order_facts",
     "AS",
     "BEGIN",
     "    SET NOCOUNT ON;",
     "",
     "    MERGE dbo.OrderFacts AS t",
     "    USING (",
     "        SELECT o.order_id, c.name, c.region, o.quantity * o.unit_price AS amount",
     "        FROM sales.Orders o",
     "        JOIN sales.Customers c ON c.customer_id = o.customer_id",
     "    ) AS s",
     "    ON t.order_id = s.order_id",
     "    WHEN MATCHED THEN",
     "        UPDATE SET t.amount = s.amount, t.loaded_at = GETDATE()",
     "    WHEN NOT MATCHED BY TARGET THEN",
     "        INSERT (order_id, customer_name, region, amount, loaded_at)",
     "        VALUES (s.order_id, s.name, s.region, s.amount, GETDATE());",
     "END"]

/-- A procedure that runs dynamic code. -/
def purgeProcedure : String :=
  joinLines
    ["/*---",
     "name: dbo.usp_purge_region",
     "description: Deletes the facts of one region",
     "owner: data-platform",
     "---*/",
     "CREATE PROCEDURE dbo.usp_purge_region",
     "    @region NVARCHAR(50)",
     "AS",
     "BEGIN",
     "    DECLARE @sql NVARCHAR(MAX) =",
     "        N'DELETE FROM dbo.OrderFacts WHERE region = @region';",
     "",
     "    EXEC sp_executesql @sql, N'@region NVARCHAR(50)', @region = @region;",
     "END"]

/-- A view. -/
def summaryView : String :=
  joinLines
    ["/*---",
     "name: dbo.v_order_summary",
     "description: Order totals per customer",
     "---*/",
     "CREATE VIEW dbo.v_order_summary",
     "AS",
     "SELECT c.customer_id, c.name, SUM(o.quantity * o.unit_price) AS total",
     "FROM sales.Customers c",
     "JOIN sales.Orders o ON o.customer_id = c.customer_id",
     "GROUP BY c.customer_id, c.name;"]

/-- The folders and files of a template, in the order in which they are made. -/
def items : ProjectTemplate → List TemplateItem
  | .minimal =>
    [.folder "sql", .file "sql/.gitkeep" "", .file "sqllineage.yaml" minimalSettings]
  | .worked =>
    [.folder "procs",
     .file "procs/usp_load_order_facts.sql" loadProcedure,
     .file "procs/usp_purge_region.sql" purgeProcedure,
     .file "schema.yaml" workedSchema,
     .file "sqllineage.yaml" workedSettings,
     .folder "views",
     .file "views/v_order_summary.sql" summaryView]

/-- The paths of the files of a template. -/
def filePaths (t : ProjectTemplate) : List String :=
  t.items.filterMap fun
    | .file path _ => some path
    | .folder _ => none

/-- Whether a file belongs to the definitions, and not to the settings. -/
def isDefinition (path : String) : Bool := path.endsWith ".sql" || path.endsWith ".gitkeep"

def nextSteps : ProjectTemplate → List String
  | .minimal =>
    ["  1. Put procedures, views and functions in sql/",
     "  2. Set schema_file in sqllineage.yaml to expand SELECT *",
     "  3. Run 'sqllineage analyze' to extract column lineage"]
  | .worked =>
    ["  sqllineage analyze   Extract column lineage",
     "  sqllineage risk      Report dynamic SQL",
     "  sqllineage doctor    Check lineage coverage"]

/-- What is said when a project has been made. -/
def report (t : ProjectTemplate) : String :=
  let done (text : String) : String := styled ("✓ " ++ text)
  joinLines <|
    [styled "Configuration"] ++ (t.filePaths.filter (!isDefinition ·)).map done
      ++ ["", styled "Definitions"] ++ (t.filePaths.filter isDefinition).map done
      ++ ["", done "sqllineage project initialized!", "", "Next steps:"] ++ t.nextSteps

end ProjectTemplate

end ColumnFlow
