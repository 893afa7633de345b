
namespace QuadStore.Vocabulary

/-- Where the names of RDF begin. -/
def rdf : String := "http://www.w3.org/1999/02/22-rdf-syntax-ns#"
def rdfs : String := "http://www.w3.org/2000/01/rdf-schema#"
def xsd : String := "http://www.w3.org/2001/XMLSchema#"
def owl : String := "http://www.w3.org/2002/07/owl#"

def rdfType : String := "http://www.w3.org/1999/02/22-rdf-syntax-ns#type"
/-- The datatype of texts with a language. -/
def langString : String := "http://www.w3.org/1999/02/22-rdf-syntax-ns#langString"
def rdfsLabel : String := "http://www.w3.org/2000/01/rdf-schema#label"
def rdfsSubClassOf : String := "http://www.w3.org/2000/01/rdf-schema#subClassOf"

def xsdString : String := "http://www.w3.org/2001/XMLSchema#string"
def xsdInteger : String := "http://www.w3.org/2001/XMLSchema#integer"
def xsdInt : String := "http://www.w3.org/2001/XMLSchema#int"
def xsdLong : String := "http://www.w3.org/2001/XMLSchema#long"
def xsdShort : String := "http://www.w3.org/2001/XMLSchema#short"
def xsdByte : String := "http://www.w3.org/2001/XMLSchema#byte"
def xsdNonNegativeInteger : String := "http://www.w3.org/2001/XMLSchema#nonNegativeInteger"
def xsdDouble : String := "http://www.w3.org/2001/XMLSchema#double"
def xsdFloat : String := "http://www.w3.org/2001/XMLSchema#float"
def xsdDecimal : String := "http://www.w3.org/2001/XMLSchema#decimal"
def xsdBoolean : String := "http://www.w3.org/2001/XMLSchema#boolean"
def xsdDateTime : String := "http://www.w3.org/2001/XMLSchema#dateTime"
def xsdDate : String := "http://www.w3.org/2001/XMLSchema#date"

/-- The context of statements that are added without one, unless the store has another. -/
def defaultContext : String := "http://localhost/context/default"

/-- The context of inferred statements, unless the store has another. -/
def inferredContext : String := "http://localhost/context/inferred"

/-- Whether literals of a datatype are kept as integers. -/
def isIntegerType (datatype : String) : Bool :=
  [xsdInteger, xsdInt, xsdLong, xsdShort, xsdByte, xsdNonNegativeInteger].contains datatype

/-- The datatypes whose literals are kept as floating point numbers. -/
def isDoubleType (datatype : String) : Bool :=
  [xsdDouble, xsdFloat, xsdDecimal].contains datatype

/-- Whether literals of a datatype are kept as moments. -/
def isDateType (datatype : String) : Bool :=
  [xsdDateTime, xsdDate].contains datatype

end QuadStore.Vocabulary
