import AnswerKey.Dialect.Java
import AnswerKey.Dialect.JavaScript
import AnswerKey.Dialect.Python

namespace AnswerKey.Dialect

def grammar : Dialect → Grammar
  | java => Java.grammar
  | javaScript => JavaScript.grammar
  | python => Python.grammar

end AnswerKey.Dialect
