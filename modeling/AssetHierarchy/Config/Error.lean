/-! Why a configuration is refused. -/
namespace AssetHierarchy

inductive ConfigError where
  | emptyProject
  | emptyToken
  | emptyClientName
  | invalidBaseUrl (url : String)
  | invalidApiVersion (version : String)
  | invalidMaxWorkers (value : UInt64)
  | invalidLimit (field : String) (value max : UInt64)
  | missingField (field : String)
deriving DecidableEq

def ConfigError.message : ConfigError → String
  | emptyProject =>
    "Project name cannot be empty. Please provide the CDF project to connect to."
  | emptyToken => "API token cannot be empty. Please provide a valid bearer token."
  | emptyClientName =>
    "Client name cannot be empty. Please provide a name identifying your application."
  | invalidBaseUrl url =>
    "Invalid base URL '" ++ url
      ++ "'. Please provide a URL with scheme (e.g., 'https://api.cognitedata.com')."
  | invalidApiVersion version =>
    "Invalid API version '" ++ version ++ "'. Expected 'v1' or 'playground'."
  | invalidMaxWorkers value =>
    "Number of workers should be >= 1, was " ++ toString value.toNat
  | invalidLimit field value max =>
    "Invalid " ++ field ++ " " ++ toString value.toNat ++ ". Must satisfy 1 <= " ++ field
      ++ " <= " ++ toString max.toNat ++ "."
  | missingField field =>
    "Missing required field: '" ++ field
      ++ "'. This field must be set before building the configuration."

end AssetHierarchy
