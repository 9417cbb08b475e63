/-!
# Session configuration

Where a dataset comes from and how to ask for it. The name of the dataset is also the name of the
shared memory region that the load service publishes.

- `SessionConfig`: the configuration, with defaults.
- `SessionConfig.datasetPath`: the file that the service is asked to load.
-/

namespace FlatTree

/-- Joins a file name to a directory. An absolute name stands alone; a slash is added unless the
directory is empty or ends in one. -/
def joinPath (directory name : String) : String :=
  if name.startsWith "/" then name
  else if directory.isEmpty || directory.endsWith "/" then directory ++ name
  else directory ++ "/" ++ name

/-- Where a dataset comes from and how to ask for it. -/
structure SessionConfig where
  /-- The load service. -/
  serverUrl : String := "http://localhost:3000"
  /-- Names the dataset and its region. -/
  datasetName : String := "datapackage"
  dataDir : String := "../Data/owid-deaths/"
  /-- Follows the dataset name in the file name, to pick another file. -/
  nameSuffix : String := ""
  /-- Tables are loaded with the document; otherwise they stay file names. -/
  loadCsv : Bool := true
  deriving DecidableEq, Repr

/-- The file that the service is asked to load. -/
def SessionConfig.datasetPath (c : SessionConfig) : String :=
  joinPath c.dataDir (c.datasetName ++ c.nameSuffix ++ ".json")

end FlatTree
