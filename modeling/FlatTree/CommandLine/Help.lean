import FlatTree.CommandLine.Request

/-!
# Help

The texts that explain how the program is used.
-/

namespace FlatTree.CommandLine

/-- The options of the program and of every command. -/
def globalHelp : String :=
  "  -v, --verbose  Report what the session does\n" ++
  "  -q, --quiet    Report nothing but results and errors\n" ++
  "  -h, --help     Print help\n"

/-- The options that say where a dataset comes from. -/
def sessionHelp : String :=
  let default : SessionConfig := {}
  s!"      --server <SERVER>      Base URL of the load service [default: {default.serverUrl}]\n" ++
  s!"      --name <NAME>          Dataset and region name [default: {default.datasetName}]\n" ++
  s!"      --data-dir <DATA_DIR>  Directory of the dataset [default: {default.dataDir}]\n" ++
  "      --suffix <SUFFIX>      Follows the dataset name in the file name\n" ++
  "      --no-csv               Keep tables as file names\n"

/-- The help on the program, or on a command. -/
def helpText : Option String → String
  | some "eager" =>
    "Load a dataset and decode it as a whole\n\nUsage: wisent eager [OPTIONS]\n\nOptions:\n" ++
      sessionHelp ++
      "      --column <COLUMN>      Sum this column instead of printing the tree\n" ++
      "      --json                 Print the tree as JSON\n" ++ globalHelp
  | some "lazy" =>
    "Load a dataset and sum a column\n\nUsage: wisent lazy [OPTIONS]\n\nOptions:\n" ++
      sessionHelp ++
      s!"      --column <COLUMN>      The column [default: \"{defaultColumn}\"]\n" ++ globalHelp
  | some "inspect" =>
    "Decode a buffer in a file\n\nUsage: wisent inspect [OPTIONS] <FILE>\n\nOptions:\n" ++
      "      --lazy     Walk the tree through views\n" ++
      "      --json     Print the tree as JSON\n" ++ globalHelp
  | _ =>
    "Wisent buffer decoder\n\nUsage: wisent [OPTIONS] <COMMAND>\n\nCommands:\n" ++
      "  eager    Load a dataset and decode it as a whole\n" ++
      "  lazy     Load a dataset and sum a column\n" ++
      "  inspect  Decode a buffer in a file\n" ++
      "  help     Print help\n\nOptions:\n" ++ globalHelp ++
      "  -V, --version  Print version\n"

/-- The version. -/
def versionText : String := "wisent 0.1.0\n"

end FlatTree.CommandLine
